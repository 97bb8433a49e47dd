/-
  File:      CryptoWallet/Library/Decoders.lean
  Subject:   What a reader of JSON values refuses, and what it makes of the rest.

  * `verdict`: an error, if there is one, else a result; `verdict_bind`: of two steps the first
    error counts.
  * `Specified read refusal value`: on every value a reader gives the verdict of its refusal.
  * `Accepts refusal P`: nothing is refused exactly where `P` holds.
  * For each of the two a rule for a field, for one that may be missing, and for the items of an
    array; `Accepts.first_item`: the first item that is refused is reported.
-/
import CryptoWallet.Library.JSON
import CryptoWallet.Library.Keyed

namespace JSONs

open Keyed (forall_zipIdx)

/-- An error, if there is one, else a result. -/
def verdict {α : Type} (refusal : Option DecodingError) (value : α) : Except DecodingError α :=
  match refusal with
  | some e => .error e
  | none => .ok value

/-- Why a value at a path is refused, if it is. -/
abbrev Refusal := List String → JSON → Option DecodingError

variable {α β : Type} {read : Reader α} {refusal : Refusal} {value : JSON → α}

/-- **Of two steps the first error counts.** -/
theorem verdict_bind {r rest : Option DecodingError} {a : α} {b : β}
    {f : α → Except DecodingError β} (h : f a = verdict rest b) :
    (verdict r a >>= f) = verdict (r.or rest) b := by
  cases r with
  | some e => rfl
  | none => exact h

theorem findSome?_cons_or {γ : Type} (f : γ → Option α) (x : γ) (l : List γ) :
    (x :: l).findSome? f = (f x).or (l.findSome? f) := by
  rw [List.findSome?_cons]
  cases f x <;> rfl

theorem verdict_map {r : Option DecodingError} {a : α} (f : α → β) :
    (verdict r a).map f = verdict r (f a) := by
  cases r <;> rfl

theorem verdict_pure {r : Option DecodingError} {a : α} (f : α → β) :
    (verdict r a >>= fun x => pure (f x)) = verdict r (f a) := by
  cases r <;> rfl

theorem verdict_ok_iff {r : Option DecodingError} {a b : α} :
    verdict r a = .ok b ↔ r = none ∧ a = b := by
  cases r <;> simp [verdict]

theorem verdict_error_iff {r : Option DecodingError} {a : α} {e : DecodingError} :
    verdict r a = .error e ↔ r = some e := by
  cases r <;> simp [verdict]

/-- **A reader gives the verdict of its refusal**, on every value. -/
def Specified (read : Reader α) (refusal : Refusal) (value : JSON → α) : Prop :=
  ∀ codingPath v, read codingPath v = verdict (refusal codingPath v) (value v)

/-- **The values a reader accepts.** -/
def Accepts (refusal : Refusal) (P : JSON → Prop) : Prop :=
  ∀ codingPath v, refusal codingPath v = none ↔ P v

/-! ## 1. Values of one kind -/

/-- A value of another kind than the one asked for. -/
def otherKind : Refusal
  | codingPath, .null => some (.valueNotFound codingPath)
  | codingPath, _ => some (.typeMismatch codingPath)

def stringRefusal : Refusal
  | _, .string _ => none
  | codingPath, v => otherKind codingPath v

def numberRefusal : Refusal
  | _, .number _ => none
  | codingPath, v => otherKind codingPath v

/-- The text of a value, if it is a text. -/
def stringOf : JSON → String
  | .string s => s
  | _ => ""

/-- The number of a value, if it is a number. -/
def numberOf : JSON → ℚ
  | .number q => q
  | _ => 0

theorem specified_string : Specified string stringRefusal stringOf := by
  intro codingPath v
  cases v <;> rfl

theorem specified_number : Specified number numberRefusal numberOf := by
  intro codingPath v
  cases v <;> rfl

theorem accepts_string : Accepts stringRefusal IsString := by
  intro codingPath v
  cases v <;> simp [stringRefusal, otherKind, IsString]

theorem accepts_number : Accepts numberRefusal IsNumber := by
  intro codingPath v
  cases v <;> simp [numberRefusal, otherKind, IsNumber]

/-! ## 2. Fields -/

/-- Why a field that has to be there is refused. -/
def fieldRefusal (refusal : Refusal) (codingPath : List String) (o : Fields) (key : String) :
    Option DecodingError :=
  match o.lookup key with
  | none => some (.keyNotFound key codingPath)
  | some v => refusal (codingPath ++ [key]) v

/-- Why a field that may be absent or null is refused. -/
def presentRefusal (refusal : Refusal) (codingPath : List String) (o : Fields) (key : String) :
    Option DecodingError :=
  match o.lookup key with
  | none => none
  | some .null => none
  | some v => refusal (codingPath ++ [key]) v

/-- What a field is read as, and what one that may be absent or null. -/
def fieldValue (value : JSON → α) (default : α) (o : Fields) (key : String) : α :=
  ((o.lookup key).map value).getD default

def presentValue (value : JSON → α) (o : Fields) (key : String) : Option α :=
  match o.lookup key with
  | none => none
  | some .null => none
  | some v => some (value v)

variable {codingPath : List String} {o : Fields} {key : String}

theorem Specified.field (h : Specified read refusal value) (default : α)
    (codingPath : List String) (o : Fields) (key : String) :
    JSONs.field read codingPath o key =
      verdict (fieldRefusal refusal codingPath o key) (fieldValue value default o key) := by
  unfold JSONs.field fieldRefusal fieldValue
  cases o.lookup key with
  | none => rfl
  | some v => exact h _ v

theorem Specified.fieldIfPresent (h : Specified read refusal value) (codingPath : List String)
    (o : Fields) (key : String) :
    JSONs.fieldIfPresent read codingPath o key =
      verdict (presentRefusal refusal codingPath o key) (presentValue value o key) := by
  unfold JSONs.fieldIfPresent presentRefusal presentValue
  cases o.lookup key with
  | none => rfl
  | some v =>
      simp only [h _ _, verdict_map]
      cases v <;> rfl

/-- A field that has to be there is accepted when it is, with an accepted value. -/
theorem Accepts.field {P : JSON → Prop} (hP : Accepts refusal P) (codingPath : List String)
    (o : Fields) (key : String) :
    fieldRefusal refusal codingPath o key = none ↔ ∃ v, o.lookup key = some v ∧ P v := by
  unfold fieldRefusal
  cases o.lookup key with
  | none => simp
  | some v => simp [hP _ v]

/-- One that may be missing is accepted when it is missing or has an accepted value. -/
theorem Accepts.fieldIfPresent {P : JSON → Prop} (hP : Accepts refusal P)
    (codingPath : List String) (o : Fields) (key : String) :
    presentRefusal refusal codingPath o key = none ↔ Optionally P o key := by
  unfold presentRefusal Optionally
  cases o.lookup key with
  | none => simp
  | some v =>
      have h := hP (codingPath ++ [key]) v
      cases v <;> simp [h]

/-! ## 3. Arrays -/

/-- The path of an item. -/
def itemPath (codingPath : List String) (index : Nat) : List String :=
  codingPath ++ ["Index " ++ toString index]

/-- An array of items; its first wrong item is reported. -/
def items (read : Reader α) : Reader (List α)
  | codingPath, .array items =>
      items.zipIdx.mapM fun item => read (itemPath codingPath item.2) item.1
  | codingPath, .null => .error (.valueNotFound codingPath)
  | codingPath, _ => .error (.typeMismatch codingPath)

/-- Why an array is refused: the refusal of the first item that has one. -/
def itemsRefusal (refusal : Refusal) : Refusal
  | codingPath, .array items =>
      items.zipIdx.findSome? fun item => refusal (itemPath codingPath item.2) item.1
  | codingPath, v => otherKind codingPath v

/-- What the items of an array are read as. -/
def itemsValue (value : JSON → α) : JSON → List α
  | .array items => items.map value
  | _ => []

theorem numbers_eq_items : numbers = items number := by
  funext codingPath v
  cases v <;> rfl

/-- A list is read element by element. -/
theorem mapM_verdict {ι : Type} {f : ι → Except DecodingError α} {r : ι → Option DecodingError}
    {g : ι → α} (h : ∀ x, f x = verdict (r x) (g x)) (l : List ι) :
    l.mapM f = verdict (l.findSome? r) (l.map g) := by
  induction l with
  | nil => rfl
  | cons x l ih =>
      rw [List.mapM_cons, h, findSome?_cons_or]
      refine verdict_bind ?_
      rw [ih]
      exact verdict_pure fun values => g x :: values

/-- **An array of items is read item by item.** -/
theorem Specified.items (h : Specified read refusal value) :
    Specified (JSONs.items read) (itemsRefusal refusal) (itemsValue value) := by
  intro codingPath v
  cases v with
  | array l =>
      have hvalues : (l.zipIdx.map fun item => value item.1) = l.map value :=
        calc (l.zipIdx.map fun item => value item.1)
            = (l.zipIdx.map Prod.fst).map value := (List.map_map ..).symm
          _ = l.map value := by rw [List.zipIdx_map_fst]
      have hitems : ∀ item : JSON × Nat, read (itemPath codingPath item.2) item.1 =
          verdict (refusal (itemPath codingPath item.2) item.1) (value item.1) :=
        fun item => h _ _
      have hl := mapM_verdict hitems l.zipIdx
      rw [hvalues] at hl
      exact hl
  | _ => rfl

/-- An array is accepted when each of its items is. -/
theorem Accepts.items {P : JSON → Prop} (hP : Accepts refusal P) :
    Accepts (itemsRefusal refusal) fun v => ∃ l, v = .array l ∧ ∀ item ∈ l, P item := by
  intro codingPath v
  cases v with
  | array l =>
      simp only [itemsRefusal, List.findSome?_eq_none_iff, hP _ _, forall_zipIdx,
        JSON.array.injEq, exists_eq_left']
  | _ => simp [itemsRefusal, otherKind]

/-- **An array is refused for the first of its items that is.** -/
theorem Accepts.first_item {P : JSON → Prop} (hP : Accepts refusal P)
    (codingPath : List String) (l : List JSON) (e : DecodingError) :
    itemsRefusal refusal codingPath (.array l) = some e ↔
      ∃ pre item post, l = pre ++ item :: post ∧ (∀ x ∈ pre, P x) ∧
        refusal (itemPath codingPath pre.length) item = some e := by
  simp only [itemsRefusal, List.findSome?_eq_some_iff, hP _ _]
  constructor
  · rintro ⟨pre', item, post', hl, he, hpre⟩
    -- a list with numbers is taken apart where the list is
    obtain ⟨pre, rest, rfl, rfl, hrest⟩ := List.zipIdx_eq_append_iff.mp hl
    obtain ⟨v, post, rfl, rfl, -⟩ := List.zipIdx_eq_cons_iff.mp hrest.symm
    rw [Nat.zero_add] at he
    exact ⟨pre, v, post, rfl, forall_zipIdx.mp hpre, he⟩
  · rintro ⟨pre, v, post, rfl, hpre, he⟩
    refine ⟨pre.zipIdx, (v, 0 + pre.length), post.zipIdx (0 + pre.length + 1), ?_, ?_,
      forall_zipIdx.mpr hpre⟩
    · rw [List.zipIdx_append, List.zipIdx_cons]
    · rw [Nat.zero_add]
      exact he

/-- A list of numbers is an array of them. -/
theorem isNumbers_iff {v : JSON} :
    IsNumbers v ↔ ∃ l, v = .array l ∧ ∀ item ∈ l, IsNumber item := by
  constructor
  · rintro ⟨qs, rfl⟩
    refine ⟨_, rfl, fun item hm => ?_⟩
    obtain ⟨q, -, rfl⟩ := List.mem_map.mp hm
    exact ⟨q, rfl⟩
  · rintro ⟨l, rfl, hl⟩
    refine ⟨numbersIn l, congrArg JSON.array ?_⟩
    induction l with
    | nil => rfl
    | cons v l ih =>
        obtain ⟨q, rfl⟩ := hl v List.mem_cons_self
        exact congrArg (JSON.number q :: ·) (ih fun item hm => hl item (List.mem_cons_of_mem _ hm))

end JSONs
