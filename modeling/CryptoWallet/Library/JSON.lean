/-
  File:      CryptoWallet/Library/JSON.lean
  Subject:   JSON values and a decoder that looks fields up by their keys.

  A number stands for the value of the Double the decoder reads from its text, a rational. An
  error says where it is: the keys and indices on the way to the value.

  * `JSON`; `string`, `number`, `numbers`: a value read as a value of a type, or an error.
  * `field`, `fieldIfPresent`: a field read by its key; the second gives nothing for a field that
    is absent or null.
  * `Optionally`: a field is absent, null or of a kind; `fieldIfPresent_cases`: reading such a
    field.
  * `numbers_ok`: a list of numbers is read as the list of them.
-/
import Mathlib.Data.Rat.Defs
import Mathlib.Data.List.Basic

namespace JSONs

inductive JSON where
  | null
  | bool (value : Bool)
  | number (value : ℚ)
  | string (value : String)
  | array (items : List JSON)
  | object (fields : List (String × JSON))

/-- The fields of an object. -/
abbrev Fields := List (String × JSON)

inductive DecodingError where
  | keyNotFound (key : String) (codingPath : List String)
  | valueNotFound (codingPath : List String)
  | typeMismatch (codingPath : List String)
  deriving DecidableEq, Repr

/-- A value read as a value of a type; the path is that of the value. -/
abbrev Reader (α : Type) := List String → JSON → Except DecodingError α

/-! ## 1. Reading -/

def string : Reader String
  | _, .string s => .ok s
  | codingPath, .null => .error (.valueNotFound codingPath)
  | codingPath, _ => .error (.typeMismatch codingPath)

def number : Reader ℚ
  | _, .number q => .ok q
  | codingPath, .null => .error (.valueNotFound codingPath)
  | codingPath, _ => .error (.typeMismatch codingPath)

/-- An array of numbers; its first wrong item is reported. -/
def numbers : Reader (List ℚ)
  | codingPath, .array items =>
      items.zipIdx.mapM fun item => number (codingPath ++ ["Index " ++ toString item.2]) item.1
  | codingPath, .null => .error (.valueNotFound codingPath)
  | codingPath, _ => .error (.typeMismatch codingPath)

variable {α : Type}

/-- A field that has to be there. -/
def field (read : Reader α) (codingPath : List String) (o : Fields) (key : String) :
    Except DecodingError α :=
  match o.lookup key with
  | none => .error (.keyNotFound key codingPath)
  | some v => read (codingPath ++ [key]) v

/-- A field that may be absent or null. -/
def fieldIfPresent (read : Reader α) (codingPath : List String) (o : Fields) (key : String) :
    Except DecodingError (Option α) :=
  match o.lookup key with
  | none => .ok none
  | some .null => .ok none
  | some v => (read (codingPath ++ [key]) v).map some

/-! ## 2. What is read -/

/-- The field is absent, null, or `P` holds of it. -/
def Optionally (P : JSON → Prop) (o : Fields) (key : String) : Prop :=
  ∀ v, o.lookup key = some v → v = .null ∨ P v

def IsString (v : JSON) : Prop := ∃ s, v = .string s

def IsNumber (v : JSON) : Prop := ∃ q, v = .number q

def IsNumbers (v : JSON) : Prop := ∃ qs : List ℚ, v = .array (qs.map .number)

/-- The text of a field, if it is a text. -/
def stringAt (o : Fields) (key : String) : Option String :=
  match o.lookup key with
  | some (.string s) => some s
  | _ => none

/-- The number of a field, if it is a number. -/
def numberAt (o : Fields) (key : String) : Option ℚ :=
  match o.lookup key with
  | some (.number q) => some q
  | _ => none

/-- The numbers in an array. -/
def numbersIn (items : List JSON) : List ℚ :=
  items.filterMap fun
    | .number q => some q
    | _ => none

/-- The numbers of a field, if it is an array. -/
def numbersAt (o : Fields) (key : String) : Option (List ℚ) :=
  match o.lookup key with
  | some (.array items) => some (numbersIn items)
  | _ => none

/-- The fields of a field, if it is an object. -/
def objectAt (o : Fields) (key : String) : Option Fields :=
  match o.lookup key with
  | some (.object fields) => some fields
  | _ => none

variable {read : Reader α} {codingPath : List String} {o : Fields} {key : String}

theorem field_string {s : String} (h : o.lookup key = some (.string s)) :
    field string codingPath o key = .ok s := by
  rw [field, h]
  rfl

theorem field_number {q : ℚ} (h : o.lookup key = some (.number q)) :
    field number codingPath o key = .ok q := by
  rw [field, h]
  rfl

theorem fieldIfPresent_absent (h : o.lookup key = none) :
    fieldIfPresent read codingPath o key = .ok none := by
  rw [fieldIfPresent, h]

/-- **A field that is absent or null is nothing**, any other is read. -/
theorem fieldIfPresent_cases (read : Reader α) (codingPath : List String) {P : JSON → Prop}
    (h : Optionally P o key) :
    (o.lookup key = none ∨ o.lookup key = some .null) ∧
        fieldIfPresent read codingPath o key = .ok none ∨
      ∃ v, P v ∧ o.lookup key = some v ∧ v ≠ .null ∧
        fieldIfPresent read codingPath o key = (read (codingPath ++ [key]) v).map some := by
  cases hv : o.lookup key with
  | none => exact .inl ⟨.inl rfl, fieldIfPresent_absent hv⟩
  | some v =>
      by_cases hnull : v = .null
      · rw [hnull] at hv ⊢
        exact .inl ⟨.inr rfl, by rw [fieldIfPresent, hv]⟩
      · refine .inr ⟨v, (h v hv).resolve_left hnull, rfl, hnull, ?_⟩
        unfold fieldIfPresent
        rw [hv]
        split
        · rename_i heq
          cases heq
        · rename_i heq
          exact absurd (Option.some.inj heq) hnull
        · rename_i heq
          rw [Option.some.inj heq]

/-- A number that may be missing is read as the number of its field. -/
theorem fieldIfPresent_number (codingPath : List String) (h : Optionally IsNumber o key) :
    fieldIfPresent number codingPath o key = .ok (numberAt o key) := by
  unfold numberAt
  obtain ⟨hmissing | hmissing, hread⟩ | ⟨v, ⟨q, rfl⟩, hv, -, hread⟩ :=
    fieldIfPresent_cases number codingPath h
  · rw [hread, hmissing]
  · rw [hread, hmissing]
  · rw [hread, hv]
    rfl

theorem numbersIn_map (qs : List ℚ) : numbersIn (qs.map .number) = qs := by
  rw [numbersIn, List.filterMap_map]
  exact List.filterMap_some

/-- **A list of numbers is read as the list of them.** -/
theorem numbers_ok (codingPath : List String) (qs : List ℚ) :
    numbers codingPath (.array (qs.map .number)) = .ok qs := by
  have hfrom : ∀ n, ((qs.map JSON.number).zipIdx n).mapM
      (fun item => number (codingPath ++ ["Index " ++ toString item.2]) item.1) = .ok qs := by
    induction qs with
    | nil => exact fun _ => rfl
    | cons q qs ih =>
        intro n
        rw [List.map_cons, List.zipIdx_cons, List.mapM_cons, ih (n + 1)]
        rfl
  exact hfrom 0

/-- Numbers that may be missing are read as the numbers of their field. -/
theorem fieldIfPresent_numbers (codingPath : List String) (h : Optionally IsNumbers o key) :
    fieldIfPresent numbers codingPath o key = .ok (numbersAt o key) := by
  unfold numbersAt
  obtain ⟨hmissing | hmissing, hread⟩ | ⟨v, ⟨qs, rfl⟩, hv, -, hread⟩ :=
    fieldIfPresent_cases numbers codingPath h
  · rw [hread, hmissing]
  · rw [hread, hmissing]
  · rw [hread, hv, numbers_ok]
    show Except.ok (some qs) = Except.ok (some (numbersIn (qs.map .number)))
    rw [numbersIn_map]

end JSONs
