import DocumentStore.MediaType
import DocumentStore.Proofs.Fields

/-!
# The two forms of media settings

Names and codes are two tables of the same media types, and neither has an entry twice. So each
translation takes back what the other has done, in the one place where the setting stands.

* `ofName?_eq_some_iff` and `ofCode?_eq_some_iff`: each table is looked up by its inverse;
* `Exchanged`: two records that differ in nothing but the form of the setting;
* `encodeSettings_eq_ok_iff` and `decodeSettings_eq_ok_iff`: all that a translation does;
* `settings_translate`: which records are translated, and what the way there and back leads to.
-/

namespace DocumentStore.MediaType

variable {type : MediaType} {settings other : Document}

/-! ## The tables -/

theorem mem_all (type : MediaType) : type ∈ all := by
  cases type <;> decide

theorem name_injective : Function.Injective name := by
  intro first second h
  cases first <;> cases second <;> first | rfl | exact absurd h (by decide)

theorem code_injective : Function.Injective code := by
  intro first second h
  cases first <;> cases second <;> first | rfl | exact absurd h (by decide)

/-- A table without repetitions is looked up by its inverse. -/
theorem find?_all_eq_some_iff {κ : Type} [DecidableEq κ] {key : MediaType → κ}
    (h : Function.Injective key) {entry : κ} :
    (all.find? fun type => key type = entry) = some type ↔ key type = entry := by
  have hfound {found : MediaType} (hfind : (all.find? fun type => key type = entry) = some found) :
      key found = entry := by
    simpa using List.find?_some hfind
  refine ⟨hfound, fun hkey => ?_⟩
  cases hfind : all.find? fun type => key type = entry with
  | none => exact absurd (decide_eq_true hkey) (List.find?_eq_none.1 hfind type (mem_all type))
  | some found => rw [h ((hfound hfind).trans hkey.symm)]

theorem ofName?_eq_some_iff {name : String} : ofName? name = some type ↔ type.name = name :=
  find?_all_eq_some_iff name_injective

theorem toInt64_injective : Function.Injective Int32.toInt64 :=
  Function.LeftInverse.injective Int32.toInt32_toInt64

theorem ofCode?_eq_some_iff {code : Int64} : ofCode? code = some type ↔ type.code.toInt64 = code :=
  find?_all_eq_some_iff (toInt64_injective.comp code_injective)

/-- A code may stand in an integer of either width. -/
theorem asInt?_eq_code_iff {value : Value} : value.asInt? = some type.code.toInt64 ↔
    value = .int32 type.code ∨ value = .int64 type.code.toInt64 := by
  cases value <;> simp [Value.asInt?, toInt64_injective.eq_iff]

/-! ## The place of the setting -/

/-- The records differ in the setting alone, which stands in the same place and has the first value
here and the second one there. -/
def Exchanged (first second : Value) (settings other : Document) : Prop :=
  ∃ front behind, settings = front ++ (setting, first) :: behind ∧
    setting ∉ Fields.names front ∧ other = front ++ (setting, second) :: behind

namespace Exchanged

variable {first second third : Value} {last : Document}

theorem symm (h : Exchanged first second settings other) : Exchanged second first other settings := by
  obtain ⟨front, behind, hsettings, hfront, hother⟩ := h
  exact ⟨front, behind, hother, hfront, hsettings⟩

theorem get?_left (h : Exchanged first second settings other) :
    settings.get? setting = some first := by
  obtain ⟨front, behind, rfl, hfront, -⟩ := h
  exact Fields.get?_append_cons_self hfront first behind

theorem insert_left (h : Exchanged first second settings other) :
    settings.insert setting second = other := by
  obtain ⟨front, behind, rfl, hfront, rfl⟩ := h
  exact Fields.insert_append_cons_self hfront first second behind

theorem of_get? (h : settings.get? setting = some first) (second : Value) :
    Exchanged first second settings (settings.insert setting second) := by
  obtain ⟨front, behind, rfl, hfront⟩ := Fields.exists_split_of_get?_eq_some h
  exact ⟨front, behind, rfl, hfront, Fields.insert_append_cons_self hfront first second behind⟩

theorem trans (h : Exchanged first second settings other) (h' : Exchanged second third other last) :
    Exchanged first third settings last := by
  have hlast : settings.insert setting third = last := by
    rw [← h'.insert_left, ← h.insert_left, Fields.insert_insert]
  exact hlast ▸ of_get? h.get?_left third

end Exchanged

/-! ## Translating -/

/-- The code is put in place of the constant. -/
theorem encodeSettings_eq_ok_iff : encodeSettings settings = .ok other ↔
    settings.get? setting = none ∧ other = settings ∨
      ∃ type : MediaType, Exchanged (.string type.name) (.int32 type.code) settings other := by
  constructor
  · intro h
    unfold encodeSettings at h
    split at h
    · next hnone => exact .inl ⟨hnone, (Except.ok.inj h).symm⟩
    · next name hname =>
      split at h
      · next type htype =>
        obtain rfl := Except.ok.inj h
        rw [← ofName?_eq_some_iff.1 htype] at hname
        exact .inr ⟨type, .of_get? hname _⟩
      · cases h
    · cases h
  · rintro (⟨hnone, rfl⟩ | ⟨type, h⟩)
    · rw [encodeSettings, hnone]
    · have hname : ofName? type.name = some type := ofName?_eq_some_iff.2 rfl
      rw [encodeSettings, h.get?_left]
      simp only [hname, h.insert_left]

/-- The constant is put in place of the code. -/
theorem decodeSettings_eq_ok_iff : decodeSettings settings = .ok other ↔
    settings.get? setting = none ∧ other = settings ∨
      ∃ (type : MediaType) (value : Value), value.asInt? = some type.code.toInt64 ∧
        Exchanged value (.string type.name) settings other := by
  constructor
  · intro h
    unfold decodeSettings at h
    split at h
    · next hnone => exact .inl ⟨hnone, (Except.ok.inj h).symm⟩
    · next value hvalue =>
      split at h
      · next code hcode =>
        split at h
        · next type htype =>
          obtain rfl := Except.ok.inj h
          rw [← ofCode?_eq_some_iff.1 htype] at hcode
          exact .inr ⟨type, value, hcode, .of_get? hvalue _⟩
        · cases h
      · cases h
  · rintro (⟨hnone, rfl⟩ | ⟨type, value, hcode, h⟩)
    · rw [decodeSettings, hnone]
    · have htype : ofCode? type.code.toInt64 = some type := ofCode?_eq_some_iff.2 rfl
      rw [decodeSettings, h.get?_left]
      simp only [hcode, htype, h.insert_left]

theorem encodeSettings_succeeds_iff : (∃ stored, encodeSettings settings = .ok stored) ↔
    settings.get? setting = none ∨
      ∃ type : MediaType, settings.get? setting = some (.string type.name) := by
  simp only [encodeSettings_eq_ok_iff]
  constructor
  · rintro ⟨stored, ⟨hnone, -⟩ | ⟨type, h⟩⟩
    · exact .inl hnone
    · exact .inr ⟨type, h.get?_left⟩
  · rintro (hnone | ⟨type, hname⟩)
    · exact ⟨settings, .inl ⟨hnone, rfl⟩⟩
    · exact ⟨_, .inr ⟨type, .of_get? hname _⟩⟩

theorem decodeSettings_succeeds_iff : (∃ shown, decodeSettings settings = .ok shown) ↔
    settings.get? setting = none ∨ ∃ (type : MediaType) (value : Value),
      value.asInt? = some type.code.toInt64 ∧ settings.get? setting = some value := by
  simp only [decodeSettings_eq_ok_iff]
  constructor
  · rintro ⟨shown, ⟨hnone, -⟩ | ⟨type, value, hcode, h⟩⟩
    · exact .inl hnone
    · exact .inr ⟨type, value, hcode, h.get?_left⟩
  · rintro (hnone | ⟨type, value, hcode, hvalue⟩)
    · exact ⟨settings, .inl ⟨hnone, rfl⟩⟩
    · exact ⟨_, .inr ⟨type, value, hcode, .of_get? hvalue _⟩⟩

theorem kind_of_encodeSettings_eq_error {fault : Fault} (h : encodeSettings settings = .error fault) :
    fault.kind = .invalidRecord := by
  unfold encodeSettings at h
  split at h
  · cases h
  · split at h <;> cases h
    rfl
  · cases h
    rfl

theorem kind_of_decodeSettings_eq_error {fault : Fault} (h : decodeSettings settings = .error fault) :
    fault.kind = .invalidRecord := by
  unfold decodeSettings at h
  split at h
  · cases h
  · split at h
    · split at h <;> cases h
      rfl
    · cases h
      rfl

/-! ## There and back -/

/-- What was encoded is decoded into the settings that it comes from. -/
theorem decodeSettings_of_encodeSettings (h : encodeSettings settings = .ok other) :
    decodeSettings other = .ok settings := by
  rcases encodeSettings_eq_ok_iff.1 h with ⟨hnone, rfl⟩ | ⟨type, h⟩
  · exact decodeSettings_eq_ok_iff.2 (.inl ⟨hnone, rfl⟩)
  · exact decodeSettings_eq_ok_iff.2 (.inr ⟨type, _, rfl, h.symm⟩)

/-- What was decoded is encoded into the settings that it comes from, with the code as an integer of the
smaller width. -/
theorem encodeSettings_of_decodeSettings (h : decodeSettings settings = .ok other) :
    ∃ stored, encodeSettings other = .ok stored ∧
      (settings.get? setting = none ∧ other = settings ∧ stored = settings ∨
        ∃ (type : MediaType) (value : Value),
          (value = .int32 type.code ∨ value = .int64 type.code.toInt64) ∧
          Exchanged value (.string type.name) settings other ∧
          Exchanged value (.int32 type.code) settings stored) := by
  rcases decodeSettings_eq_ok_iff.1 h with ⟨hnone, rfl⟩ | ⟨type, value, hcode, hother⟩
  · exact ⟨other, encodeSettings_eq_ok_iff.2 (.inl ⟨hnone, rfl⟩), .inl ⟨hnone, rfl, rfl⟩⟩
  · have hstored : Exchanged (.string type.name) (.int32 type.code) other
        (other.insert setting (.int32 type.code)) := .of_get? hother.symm.get?_left _
    exact ⟨_, encodeSettings_eq_ok_iff.2 (.inr ⟨type, hstored⟩),
      .inr ⟨type, value, asInt?_eq_code_iff.1 hcode, hother, hother.trans hstored⟩⟩

/-- Which settings are translated, and what the way there and back leads to.

Settings are encoded exactly when they hold no media type or the constant of one, and what they are
encoded into is decoded into the same settings. They are decoded exactly when they hold no media type or
the code of one, as an integer of either width, and what they are decoded into is encoded into settings
that differ in nothing but the width of the code. All other settings stay in their places, and everything
that is not translated is an invalid record. -/
theorem settings_translate (settings : Document) :
    ((∃ stored, encodeSettings settings = .ok stored) ↔
      settings.get? setting = none ∨
        ∃ type : MediaType, settings.get? setting = some (.string type.name)) ∧
    (∀ stored, encodeSettings settings = .ok stored → decodeSettings stored = .ok settings ∧
      (settings.get? setting = none ∧ stored = settings ∨
        ∃ type : MediaType, Exchanged (.string type.name) (.int32 type.code) settings stored)) ∧
    ((∃ shown, decodeSettings settings = .ok shown) ↔
      settings.get? setting = none ∨ ∃ type : MediaType,
        settings.get? setting = some (.int32 type.code) ∨
        settings.get? setting = some (.int64 type.code.toInt64)) ∧
    (∀ shown, decodeSettings settings = .ok shown → ∃ stored, encodeSettings shown = .ok stored ∧
      (settings.get? setting = none ∧ shown = settings ∧ stored = settings ∨
        ∃ (type : MediaType) (value : Value),
          (value = .int32 type.code ∨ value = .int64 type.code.toInt64) ∧
          Exchanged value (.string type.name) settings shown ∧
          Exchanged value (.int32 type.code) settings stored)) ∧
    (∀ fault, encodeSettings settings = .error fault → fault.kind = .invalidRecord) ∧
    ∀ fault, decodeSettings settings = .error fault → fault.kind = .invalidRecord := by
  refine ⟨encodeSettings_succeeds_iff,
    fun stored h => ⟨decodeSettings_of_encodeSettings h, encodeSettings_eq_ok_iff.1 h⟩, ?_,
    fun shown => encodeSettings_of_decodeSettings, fun fault => kind_of_encodeSettings_eq_error,
    fun fault => kind_of_decodeSettings_eq_error⟩
  rw [decodeSettings_succeeds_iff]
  simp only [asInt?_eq_code_iff, or_and_right, exists_or, exists_eq_left]

/-- The code of the last media type, in the larger width and between other settings. -/
theorem settings_translate_int64 :
    decodeSettings [("width", .int32 640), (setting, .int64 7), ("loop", .null)] =
      .ok [("width", .int32 640), (setting, .string "TYPE_HTML5_AUDIO"), ("loop", .null)] ∧
    encodeSettings [("width", .int32 640), (setting, .string "TYPE_HTML5_AUDIO"), ("loop", .null)] =
      .ok [("width", .int32 640), (setting, .int32 7), ("loop", .null)] ∧
    decodeSettings [("width", .int32 640), (setting, .int32 7), ("loop", .null)] =
      .ok [("width", .int32 640), (setting, .string "TYPE_HTML5_AUDIO"), ("loop", .null)] := by
  have hencode : encodeSettings
      [("width", .int32 640), (setting, .string "TYPE_HTML5_AUDIO"), ("loop", .null)] =
        .ok [("width", .int32 640), (setting, .int32 7), ("loop", .null)] := rfl
  exact ⟨rfl, hencode, ((settings_translate _).2.1 _ hencode).1⟩

end DocumentStore.MediaType
