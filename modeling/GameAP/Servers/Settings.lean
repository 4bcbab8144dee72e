import GameAP.Lib.Strconv
import Mathlib.Data.List.Induction

/-!
# Values of server settings

A setting keeps a guessed value next to the text that it was made from.  `Value` hands the text to
the database, and the driver delivers it again as bytes or as a string; `Scan` guesses for bytes
only.  The text survives, the literal `null` apart, which stands for an absent value, and what
`Bool` and `Int` say of a number depends on the driver.
-/

namespace GameAP

open Strconv

/-- The values that `NewServerSettingValue` and `Scan` tell apart: a float stands for its text under
`formatFloat`, a value of another type for its text under `%v`. -/
inductive SettingAny
  | nil
  | string (v : String)
  | bool (v : Bool)
  | int (v : ℤ)
  | float (text : String)
  | other (text : String)
deriving DecidableEq, Repr

inductive ServerSettingType
  | unknown | string | bool | int | float
deriving DecidableEq, Repr

/-- A value with its text. -/
structure ServerSettingValue where
  value : SettingAny
  raw : String
  tp : ServerSettingType
deriving DecidableEq, Repr

/-- What a driver delivers: a column as bytes, or any other value. -/
inductive DriverValue
  | bytes (b : String)
  | direct (v : SettingAny)

/-- The two ways in which drivers deliver a text. -/
inductive DriverShape
  | bytes | string
deriving DecidableEq, Repr

/-- What the driver delivers. -/
def DriverShape.deliver : DriverShape → Option String → DriverValue
  | _, none => .direct .nil
  | .bytes, some t => .bytes t
  | .string, some t => .direct (.string t)

namespace ServerSettingValue

/-- `NewServerSettingValue`. -/
def new : SettingAny → ServerSettingValue
  | .string v => ⟨.string v, v, .string⟩
  | .bool v => ⟨.bool v, if v then "true" else "false", .bool⟩
  | .int v => ⟨.int v, toString v, .int⟩
  | .float text => ⟨.float text, text, .float⟩
  | .nil => ⟨.nil, "", .unknown⟩
  | .other text => ⟨.string text, text, .string⟩

def raw? (s : ServerSettingValue) : Option String :=
  if s.tp = .unknown then none else some s.raw

def string? (s : ServerSettingValue) : Option String :=
  match s.tp, s.value with
  | .string, .string v => some v
  | .int, .int v => some (toString v)
  | .float, .float text => some text
  | .bool, .bool v => some (if v then "true" else "false")
  | _, _ => none

def bool? (s : ServerSettingValue) : Option Bool :=
  match s.value with
  | .bool v => some v
  | .int v => some (v ≠ 0)
  | .string v => if v = "true" then some true else if v = "false" then some false else none
  | _ => none

def int? (s : ServerSettingValue) : Option ℤ :=
  match s.tp, s.value with
  | .int, .int v => some v
  | _, _ => none

/-- `Value`: without a result the column is set to NULL. -/
def value? (s : ServerSettingValue) : Option String :=
  if s.value = .nil then none else if s.raw ≠ "" then some s.raw else some (s.string?.getD "")

/-- `Scan` overwrites the whole value; what is not bytes is treated as in
`NewServerSettingValue`. -/
def scan : DriverValue → ServerSettingValue
  | .bytes b =>
    if b = "true" then ⟨.bool true, b, .bool⟩
    else if b = "false" then ⟨.bool false, b, .bool⟩
    else if b = "null" then ⟨.nil, "", .unknown⟩
    else match parseInt b with
      | some n => ⟨.int n, b, .int⟩
      | none => ⟨.string b, b, .string⟩
  | .direct v => new v

/-- Store the value and load it. -/
def reload (s : ServerSettingValue) (shape : DriverShape) : ServerSettingValue :=
  scan (shape.deliver s.value?)

/-- Store a text and load it, once for each of the shapes. -/
def reloads (t : String) (shapes : List DriverShape) : ServerSettingValue :=
  shapes.foldl (reload) (new (.string t))

/-- What is stored of a text after the loads. -/
def stored (t : String) (shapes : List DriverShape) : Option String :=
  if t = "null" ∧ .bytes ∈ shapes then none else some t

variable {t : String}

theorem value?_new (t : String) : (new (.string t)).value? = some t := by
  by_cases ht : t = "" <;> simp [new, value?, string?, ht]

/-- A text comes back from bytes, except that `null` is an absent value. -/
theorem value?_scan_bytes (t : String) :
    (scan (.bytes t)).value? = (if t = "null" then none else some t) ∧
    (scan (.bytes t)).raw? = (if t = "null" then none else some t) := by
  by_cases htrue : t = "true"
  · subst htrue
    exact ⟨rfl, rfl⟩
  by_cases hfalse : t = "false"
  · subst hfalse
    exact ⟨rfl, rfl⟩
  by_cases hnull : t = "null"
  · subst hnull
    exact ⟨rfl, rfl⟩
  simp only [scan, htrue, hfalse, hnull, if_false]
  cases hparse : parseInt t with
  | none => exact ⟨value?_new t, rfl⟩
  | some n =>
    -- the number was read from a text that is not empty, so `Value` hands out the text
    have ht : t ≠ "" := by
      rintro rfl
      cases hparse
    exact ⟨by simp [value?, ht], rfl⟩

theorem reloads_concat (t : String) (shapes : List DriverShape) (shape : DriverShape) :
    reloads t (shapes ++ [shape]) = reload (reloads t shapes) shape := by
  simp [reloads]

theorem value?_reloads (t : String) (shapes : List DriverShape) :
    (reloads t shapes).value? = stored t shapes ∧ (reloads t shapes).raw? = stored t shapes := by
  induction shapes using List.reverseRecOn with
  | nil =>
    rw [stored, if_neg (by simp)]
    exact ⟨value?_new t, rfl⟩
  | append_singleton shapes shape ih =>
    rw [reloads_concat, reload, ih.1]
    by_cases hlost : t = "null" ∧ .bytes ∈ shapes
    · -- an absent value stays absent in both shapes
      have hst : stored t (shapes ++ [shape]) = none := by simp [stored, hlost]
      rw [hst, stored, if_pos hlost]
      exact ⟨rfl, rfl⟩
    · rw [stored, if_neg hlost]
      cases shape with
      | bytes =>
        have hst : stored t (shapes ++ [.bytes]) = if t = "null" then none else some t := by
          simp [stored]
        rw [hst]
        exact value?_scan_bytes t
      | string =>
        have hst : stored t (shapes ++ [.string]) = some t := by
          simpa [stored] using hlost
        rw [hst]
        exact ⟨value?_new t, rfl⟩

theorem bool?_int?_reload (ht : parseInt t = none) (shapes : List DriverShape)
    (shape : DriverShape) :
    (reloads t (shapes ++ [shape])).bool? = (new (.string t)).bool? ∧
    (reloads t (shapes ++ [shape])).int? = none := by
  rw [reloads_concat, reload, (value?_reloads t shapes).1]
  by_cases hlost : t = "null" ∧ .bytes ∈ shapes
  · rw [stored, if_pos hlost, hlost.1]
    exact ⟨rfl, rfl⟩
  rw [stored, if_neg hlost]
  cases shape with
  | string => exact ⟨rfl, rfl⟩
  | bytes =>
    by_cases hword : t ∈ ["true", "false", "null"]
    · simp only [List.mem_cons, List.not_mem_nil, or_false] at hword
      rcases hword with rfl | rfl | rfl <;> exact ⟨rfl, rfl⟩
    · simp only [List.mem_cons, List.not_mem_nil, or_false, not_or] at hword
      simp [DriverShape.deliver, scan, hword, ht, bool?, int?, new]

theorem int?_scan_bytes {n : ℤ} (hparse : parseInt t = some n) :
    (scan (.bytes t)).int? = some n := by
  -- the literals are no numbers
  have hwords : ∀ word ∈ ["true", "false", "null"], parseInt word = none := by decide
  have hword : t ∉ ["true", "false", "null"] := fun hmem => by simp [hwords t hmem] at hparse
  simp only [List.mem_cons, List.not_mem_nil, or_false, not_or] at hword
  simp [scan, hword, hparse, int?]

/-- A text comes back exactly if it is not the literal `null` delivered as bytes, and `Bool` and
`Int` depend on the shapes exactly if the text is a number. -/
theorem reloads_eq_iff (t : String) :
    (∀ shapes, (reloads t shapes).raw? = some t ↔ (t = "null" → .bytes ∉ shapes)) ∧
    ((∀ shapes shapes' : List DriverShape, ∀ shape shape' : DriverShape,
        (reloads t (shapes ++ [shape])).bool? = (reloads t (shapes' ++ [shape'])).bool? ∧
        (reloads t (shapes ++ [shape])).int? = (reloads t (shapes' ++ [shape'])).int?) ↔
      parseInt t = none) := by
  refine ⟨fun shapes => ?_, fun hsame => ?_, fun ht shapes shapes' shape shape' => ?_⟩
  · rw [(value?_reloads t shapes).2, stored]
    split_ifs with h
    · exact iff_of_false nofun fun hnot => hnot h.1 h.2
    · exact iff_of_true rfl fun hnull hmem => h ⟨hnull, hmem⟩
  · by_contra hnumber
    obtain ⟨n, hparse⟩ := Option.ne_none_iff_exists'.1 hnumber
    have hone (shape : DriverShape) : reloads t [shape] = scan (shape.deliver (some t)) := by
      rw [reloads, List.foldl_cons, List.foldl_nil, reload, value?_new]
    have hint := (hsame [] [] .bytes .string).2
    rw [List.nil_append, List.nil_append, hone, hone, DriverShape.deliver,
      int?_scan_bytes hparse] at hint
    cases hint
  · obtain ⟨hbool, hint⟩ := bool?_int?_reload ht shapes shape
    obtain ⟨hbool', hint'⟩ := bool?_int?_reload ht shapes' shape'
    exact ⟨hbool.trans hbool'.symm, hint.trans hint'.symm⟩

/-- The text `7` is the number 7 from one driver and no number from another. -/
theorem int?_reloads_seven : (reloads "7" [.bytes]).int? = some 7 ∧
    (reloads "7" [.string]).int? = none ∧ (reloads "7" [.bytes]).bool? = some true ∧
    (reloads "7" [.string]).bool? = none := by
  decide

end ServerSettingValue

end GameAP
