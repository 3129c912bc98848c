import DocumentStore.Json.Basic
import DocumentStore.Text.Hex

/-!
# JSON tokens

The marks, strings and literals that a JSON text consists of. A string is read up to its closing
quote with all escapes undone; half of a surrogate pair on its own and a bare control character are
refused. A number or a word is the longest run of characters that numbers or words are made of, and
it has to be a number or one of the three words as a whole.
-/

namespace DocumentStore

/-- A token of a JSON text. -/
inductive Json.Token where
  | beginArray
  | endArray
  | beginObject
  | endObject
  | colon
  | comma
  | string (text : String)
  /-- A number, a truth value or null. -/
  | literal (value : Json)

namespace Json.Token

/-! ## Strings -/

/-- The character behind a backslash that stands for itself or for a control character. -/
def escaped? : Char → Option Char
  | '"' => some '"'
  | '\\' => some '\\'
  | '/' => some '/'
  | 'b' => some '\x08'
  | 'f' => some '\x0c'
  | 'n' => some '\n'
  | 'r' => some '\r'
  | 't' => some '\t'
  | _ => none

/-- The first half of a surrogate pair. -/
def isHighSurrogate (unit : Nat) : Bool := 0xD800 ≤ unit && unit < 0xDC00

/-- The second half of a surrogate pair. -/
def isLowSurrogate (unit : Nat) : Bool := 0xDC00 ≤ unit && unit < 0xE000

/-- The character behind an escaped code unit, and the text behind it. A first half of a pair has
to be followed by the escape of a second half. -/
def unicodeEscape? (unit : Nat) (rest : List Char) : Option (Char × List Char) :=
  if isLowSurrogate unit then none
  else if isHighSurrogate unit then
    match rest with
    | '\\' :: 'u' :: a :: b :: c :: d :: rest => do
      let low ← Hex.readNat? [a, b, c, d]
      if isLowSurrogate low then
        some (Char.ofNat (0x10000 + (unit - 0xD800) * 0x400 + (low - 0xDC00)), rest)
      else none
    | _ => none
  else some (Char.ofNat unit, rest)

/-- One character of a string as it is written, and the text behind it. -/
def stringChar? : List Char → Option (Char × List Char)
  | [] => none
  | '\\' :: 'u' :: a :: b :: c :: d :: rest => do unicodeEscape? (← Hex.readNat? [a, b, c, d]) rest
  | '\\' :: mark :: rest => (escaped? mark).map fun c => (c, rest)
  | c :: rest => if c.toNat < 0x20 ∨ c = '\\' then none else some (c, rest)

/-- An escape leaves no more text than it finds. -/
theorem length_unicodeEscape? {unit : Nat} {text rest : List Char} {c : Char}
    (h : unicodeEscape? unit text = some (c, rest)) : rest.length ≤ text.length := by
  unfold unicodeEscape? at h
  split at h
  · simp at h
  split at h
  · split at h
    · simp only [Option.bind_eq_bind, Option.bind_eq_some_iff] at h
      obtain ⟨low, -, h⟩ := h
      split at h <;> simp at h
      rw [← h.2]
      simp only [List.length_cons]
      omega
    · simp at h
  · simp at h
    exact h.2 ▸ Nat.le_refl _

/-- Reading one character of a string uses up some of the text. -/
theorem length_stringChar? {text rest : List Char} {c : Char}
    (h : stringChar? text = some (c, rest)) : rest.length < text.length := by
  unfold stringChar? at h
  split at h
  · simp at h
  · simp only [Option.bind_eq_bind, Option.bind_eq_some_iff] at h
    obtain ⟨unit, -, h⟩ := h
    have := length_unicodeEscape? h
    simp only [List.length_cons]
    omega
  · simp only [Option.map_eq_some_iff, Prod.mk.injEq] at h
    obtain ⟨_, -, -, rfl⟩ := h
    simp only [List.length_cons]
    omega
  · split at h <;> simp at h
    simp [h.2]

/-- The characters up to the closing quote, and the text behind the quote. -/
def stringBody? (text : List Char) : Option (List Char × List Char) :=
  if text.head? = some '"' then some ([], text.tail)
  else match _h : stringChar? text with
    | none => none
    | some (c, rest) => (stringBody? rest).map fun (body, behind) => (c :: body, behind)
  termination_by text.length
  decreasing_by exact length_stringChar? (by assumption)

/-- Reading a string to its end leaves no more text than it finds. -/
theorem length_stringBody? {text body behind : List Char}
    (h : stringBody? text = some (body, behind)) : behind.length ≤ text.length := by
  induction hn : text.length using Nat.strongRecOn generalizing text body with
  | _ n ih =>
    rw [stringBody?] at h
    split at h
    · simp only [Option.some.injEq, Prod.mk.injEq] at h
      rw [← h.2, List.length_tail]
      omega
    · split at h
      · simp at h
      · next c rest hc =>
        simp only [Option.map_eq_some_iff, Prod.mk.injEq, Prod.exists] at h
        obtain ⟨_, _, hr, -, rfl⟩ := h
        have := length_stringChar? hc
        have := ih rest.length (by omega) hr rfl
        omega

/-! ## Numbers and words -/

/-- The blanks between tokens. -/
def isBlank (c : Char) : Bool := c = ' ' || c = '\t' || c = '\n' || c = '\r'

/-- The characters that numbers and words are made of. -/
def isWordChar (c : Char) : Bool := c.isAlphanum || c = '+' || c = '-' || c = '.'

/-- The value of a number or of one of the three words. -/
def readWord? (word : List Char) : Option Json :=
  if word = ['n', 'u', 'l', 'l'] then some .null
  else if word = ['t', 'r', 'u', 'e'] then some (.boolean true)
  else if word = ['f', 'a', 'l', 's', 'e'] then some (.boolean false)
  else (Numeral.scan? word).bind ofNumeral?

/-- The token that is a single character. -/
def mark? : Char → Option Token
  | '[' => some beginArray
  | ']' => some endArray
  | '{' => some beginObject
  | '}' => some endObject
  | ':' => some colon
  | ',' => some comma
  | _ => none

/-! ## Texts -/

/-- The first token of a text that does not start with a blank, and the text behind it. -/
def next? (c : Char) (rest : List Char) : Option (Token × List Char) :=
  if c = '"' then
    (stringBody? rest).map fun (body, behind) => (string (String.ofList body), behind)
  else match mark? c with
    | some token => some (token, rest)
    | none =>
      if isWordChar c then
        (readWord? (c :: rest.takeWhile isWordChar)).map fun value =>
          (literal value, rest.dropWhile isWordChar)
      else none

/-- Reading a token leaves no more than what stands behind its first character. -/
theorem length_next? {c : Char} {rest behind : List Char} {token : Token}
    (h : next? c rest = some (token, behind)) : behind.length ≤ rest.length := by
  unfold next? at h
  split at h
  · simp only [Option.map_eq_some_iff, Prod.mk.injEq, Prod.exists] at h
    obtain ⟨_, _, hb, -, rfl⟩ := h
    exact length_stringBody? hb
  · split at h
    · simp only [Option.some.injEq, Prod.mk.injEq] at h
      exact h.2 ▸ Nat.le_refl _
    · split at h
      · simp only [Option.map_eq_some_iff, Prod.mk.injEq] at h
        obtain ⟨_, -, -, rfl⟩ := h
        exact (List.dropWhile_sublist _).length_le
      · simp at h

/-- The tokens of a text. -/
def scan? : List Char → Option (List Token)
  | [] => some []
  | c :: rest =>
    if isBlank c then scan? rest
    else match _h : next? c rest with
      | none => none
      | some (token, behind) => (scan? behind).map (token :: ·)
  termination_by text => text.length
  decreasing_by
    · simp
    · have := length_next? (by assumption)
      simp only [List.length_cons]
      omega

end Json.Token

end DocumentStore
