/-!
# Bytes as text

Two ways to write bytes: two hexadecimal digits for each byte, and base 64, four characters for
each three bytes. Hexadecimal digits are read in either case and written in lower case. Base 64 is
read strictly: the last group is padded and the bits that it does not use are zero.
-/

namespace DocumentStore

namespace Hex

/-- The value of a hexadecimal digit. -/
def digit? (c : Char) : Option Nat :=
  if '0' ≤ c ∧ c ≤ '9' then some (c.toNat - 48)
  else if 'a' ≤ c ∧ c ≤ 'f' then some (c.toNat - 87)
  else if 'A' ≤ c ∧ c ≤ 'F' then some (c.toNat - 55)
  else none

/-- The number that a row of hexadecimal digits writes. -/
def readNat? (text : List Char) : Option Nat :=
  text.foldlM (fun n c => (digit? c).map (16 * n + ·)) 0

/-- The bytes that pairs of digits write. -/
def readBytes? : List Char → Option (List UInt8)
  | [] => some []
  | [_] => none
  | high :: low :: rest => do
    let byte := 16 * (← digit? high) + (← digit? low)
    return UInt8.ofNat byte :: (← readBytes? rest)

/-- The two digits of a byte. -/
def ofByte (byte : UInt8) : List Char :=
  [Nat.digitChar (byte.toNat / 16), Nat.digitChar (byte.toNat % 16)]

/-- The digits of all bytes in order. -/
def ofBytes (bytes : List UInt8) : String := String.ofList (bytes.flatMap ofByte)

example : readBytes? "0aFf".toList = some [10, 255] := by decide

end Hex

namespace Base64

/-- The six bits that a character writes. -/
def sextet? (c : Char) : Option Nat :=
  if 'A' ≤ c ∧ c ≤ 'Z' then some (c.toNat - 65)
  else if 'a' ≤ c ∧ c ≤ 'z' then some (c.toNat - 71)
  else if '0' ≤ c ∧ c ≤ '9' then some (c.toNat + 4)
  else if c = '+' then some 62
  else if c = '/' then some 63
  else none

/-- The bytes that groups of four characters write. -/
def readBytes? : List Char → Option (List UInt8)
  | [] => some []
  | [a, b, '=', '='] => do
    let bits := 64 * (← sextet? a) + (← sextet? b)
    if bits % 16 = 0 then some [UInt8.ofNat (bits / 16)] else none
  | [a, b, c, '='] => do
    let bits := 4096 * (← sextet? a) + 64 * (← sextet? b) + (← sextet? c)
    if bits % 4 = 0 then some [UInt8.ofNat (bits / 1024), UInt8.ofNat (bits / 4 % 256)] else none
  | a :: b :: c :: d :: rest => do
    let bits := 262144 * (← sextet? a) + 4096 * (← sextet? b) + 64 * (← sextet? c) + (← sextet? d)
    return UInt8.ofNat (bits / 65536) :: UInt8.ofNat (bits / 256 % 256) ::
      UInt8.ofNat (bits % 256) :: (← readBytes? rest)
  | _ => none

example : readBytes? "AQI=".toList = some [1, 2] := by decide
example : readBytes? "AQJ=".toList = none := by decide
example : readBytes? "AQI".toList = none := by decide
example : readBytes? "AQID/w==".toList = some [1, 2, 3, 255] := by decide

end Base64

end DocumentStore
