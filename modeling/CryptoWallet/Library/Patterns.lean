/-
  File:      CryptoWallet/Library/Patterns.lean
  Subject:   Patterns made of repeated classes, matched against a whole word.

  The regular expressions without choice or nesting: one class of letters after another, each
  repeated a bounded or unbounded number of times.

  * `Piece`: a class and how often it may repeat; `Piece.Takes`: the words it stands for.
  * `fullMatch`: does the whole word match, by trying every length for the first piece.
  * `fullMatch_cons`, `fullMatch_nil`: the words of a pattern are the words of its pieces, in order.
  * `prefixMatch`: does the word begin with a match; `Pattern`: lookaheads before a body.
  * `Pattern.takes_everywhere`: lookaheads for a letter anywhere, over a body of such letters.
-/
import Mathlib.Data.List.Basic

namespace Patterns

variable {α : Type*}

/-- A letter outside a class does not occur in a word of the class. -/
theorem notMem_of_class {accepts : α → Bool} {w : List α} {c : α}
    (hw : ∀ d ∈ w, accepts d = true) (hc : accepts c = false) : c ∉ w := by
  intro hmem
  rw [hw c hmem] at hc
  cases hc

/-- A class of letters, repeated at least `least` and at most `most` times. -/
structure Piece (α : Type*) where
  accepts : α → Bool
  least : Nat
  most : Option Nat

namespace Piece

/-- One letter. -/
def letter [BEq α] (c : α) : Piece α := ⟨(· == c), 1, some 1⟩

/-- `+`: a class at least once. -/
def plus (accepts : α → Bool) : Piece α := ⟨accepts, 1, none⟩

/-- The words a piece stands for. -/
def takes (p : Piece α) (w : List α) : Bool :=
  decide (p.least ≤ w.length) && p.most.all (fun m => decide (w.length ≤ m)) && w.all p.accepts

theorem takes_iff {p : Piece α} {w : List α} :
    p.takes w = true ↔
      (p.least ≤ w.length ∧ ∀ m ∈ p.most, w.length ≤ m) ∧ ∀ c ∈ w, p.accepts c = true := by
  unfold takes
  cases p.most <;> simp

theorem takes_plus {accepts : α → Bool} {w : List α} :
    (plus accepts).takes w = true ↔ w ≠ [] ∧ ∀ c ∈ w, accepts c = true := by
  rw [takes_iff]
  show (1 ≤ w.length ∧ ∀ m ∈ none, w.length ≤ m) ∧ _ ↔ _
  simp [Nat.one_le_iff_ne_zero]
  exact fun _ => Iff.rfl

theorem takes_letter [BEq α] [LawfulBEq α] {c : α} {w : List α} :
    (letter c).takes w = true ↔ w = [c] := by
  rw [takes_iff]
  show (1 ≤ w.length ∧ ∀ m ∈ some 1, w.length ≤ m) ∧ (∀ d ∈ w, (d == c) = true) ↔ _
  cases w with
  | nil => simp
  | cons d w => cases w <;> simp

end Piece

/-- Does the whole word match the pattern? -/
def fullMatch : List (Piece α) → List α → Bool
  | [], w => w.isEmpty
  | p :: ps, w =>
      (List.range (w.length + 1)).any fun n => p.takes (w.take n) && fullMatch ps (w.drop n)

@[simp] theorem fullMatch_nil {w : List α} : fullMatch [] w = true ↔ w = [] :=
  List.isEmpty_iff

/-- **The words of a pattern**: a word of its first piece, then a word of the others. -/
theorem fullMatch_cons {p : Piece α} {ps : List (Piece α)} {w : List α} :
    fullMatch (p :: ps) w = true ↔
      ∃ u v, w = u ++ v ∧ p.takes u = true ∧ fullMatch ps v = true := by
  simp only [fullMatch, List.any_eq_true, List.mem_range, Bool.and_eq_true]
  constructor
  · intro ⟨n, _, hu, hv⟩
    exact ⟨w.take n, w.drop n, (List.take_append_drop n w).symm, hu, hv⟩
  · rintro ⟨u, v, rfl, hu, hv⟩
    refine ⟨u.length, by simp only [List.length_append]; omega, ?_, ?_⟩
    · rwa [List.take_left]
    · rwa [List.drop_left]

theorem fullMatch_single {p : Piece α} {w : List α} :
    fullMatch [p] w = true ↔ p.takes w = true := by
  rw [fullMatch_cons]
  constructor
  · intro ⟨u, v, hw, hu, hv⟩
    rw [fullMatch_nil] at hv
    rwa [hw, hv, List.append_nil]
  · intro h
    exact ⟨w, [], (List.append_nil w).symm, h, rfl⟩

/-! ## Lookaheads -/

/-- One letter of a class. -/
def Piece.one (accepts : α → Bool) : Piece α := ⟨accepts, 1, some 1⟩

/-- `*?`: a class any number of times. Lazy or not, the words are the same. -/
def Piece.star (accepts : α → Bool) : Piece α := ⟨accepts, 0, none⟩

theorem Piece.takes_one {accepts : α → Bool} {w : List α} :
    (one accepts).takes w = true ↔ ∃ c, accepts c = true ∧ w = [c] := by
  rw [takes_iff]
  show (1 ≤ w.length ∧ ∀ m ∈ some 1, w.length ≤ m) ∧ (∀ c ∈ w, accepts c = true) ↔ _
  cases w with
  | nil => simp
  | cons c w => cases w <;> simp

theorem Piece.takes_star {accepts : α → Bool} {w : List α} :
    (star accepts).takes w = true ↔ ∀ c ∈ w, accepts c = true := by
  rw [takes_iff]
  show (0 ≤ w.length ∧ ∀ m ∈ none, w.length ≤ m) ∧ (∀ c ∈ w, accepts c = true) ↔ _
  simp

/-- Does the word begin with a match of the pattern? -/
def prefixMatch : List (Piece α) → List α → Bool
  | [], _ => true
  | p :: ps, w =>
      (List.range (w.length + 1)).any fun n => p.takes (w.take n) && prefixMatch ps (w.drop n)

/-- **A word begins with a match** when a part at its front is a word of the pattern. -/
theorem prefixMatch_iff {ps : List (Piece α)} {w : List α} :
    prefixMatch ps w = true ↔ ∃ u v, w = u ++ v ∧ fullMatch ps u = true := by
  induction ps generalizing w with
  | nil =>
      constructor
      · intro _
        exact ⟨[], w, rfl, rfl⟩
      · intro _
        rfl
  | cons p ps ih =>
      simp only [prefixMatch, List.any_eq_true, List.mem_range, Bool.and_eq_true, fullMatch_cons,
        ih]
      constructor
      · intro ⟨n, _, hp, u, v, hw, hu⟩
        refine ⟨w.take n ++ u, v, ?_, w.take n, u, rfl, hp, hu⟩
        rw [List.append_assoc, ← hw, List.take_append_drop]
      · rintro ⟨_, v, rfl, a, b, rfl, hp, hb⟩
        refine ⟨a.length, by simp only [List.length_append]; omega, ?_, b, v, ?_, hb⟩
        · rwa [List.append_assoc, List.take_left]
        · rw [List.append_assoc, List.drop_left]

/-- `^(?=…)…(?=…)…$`: conditions on how the word begins, and the word itself. -/
structure Pattern (α : Type*) where
  lookaheads : List (List (Piece α))
  body : List (Piece α)

/-- Does the whole word match? -/
def Pattern.takes (p : Pattern α) (w : List α) : Bool :=
  p.lookaheads.all (prefixMatch · w) && fullMatch p.body w

/-- `(?=.*?c)` over a word of such letters: the class occurs in it. -/
theorem prefixMatch_somewhere {any wanted : α → Bool} {w : List α}
    (hw : ∀ c ∈ w, any c = true) :
    prefixMatch [Piece.star any, Piece.one wanted] w = true ↔ ∃ c ∈ w, wanted c = true := by
  simp only [prefixMatch_iff, fullMatch_cons, fullMatch_nil, Piece.takes_star, Piece.takes_one]
  constructor
  · rintro ⟨_, v, rfl, a, _, rfl, _, _, _, rfl, ⟨c, hc, rfl⟩, rfl⟩
    exact ⟨c, by simp, hc⟩
  · intro ⟨c, hmem, hc⟩
    obtain ⟨a, v, rfl⟩ := List.append_of_mem hmem
    refine ⟨a ++ [c], v, by simp, a, [c], rfl, fun d hd => ?_, [c], [], rfl, ⟨c, hc, rfl⟩, rfl⟩
    exact hw d (List.mem_append_left _ hd)

/-- **Lookaheads for classes anywhere, over a body of any letters**: the body takes the word, and
    every class occurs in it. -/
theorem Pattern.takes_everywhere (any : α → Bool) (classes : List (α → Bool)) (least : Nat)
    (w : List α) :
    (⟨classes.map fun c => [.star any, .one c], [⟨any, least, none⟩]⟩ : Pattern α).takes w = true ↔
      least ≤ w.length ∧ (∀ c ∈ w, any c = true) ∧
        ∀ wanted ∈ classes, ∃ c ∈ w, wanted c = true := by
  simp only [takes, Bool.and_eq_true, List.all_map, List.all_eq_true, Function.comp_apply,
    fullMatch_single, Piece.takes_iff]
  constructor
  · intro ⟨hlook, ⟨hleast, _⟩, hany⟩
    exact ⟨hleast, hany, fun c hc => (prefixMatch_somewhere hany).mp (hlook c hc)⟩
  · intro ⟨hleast, hany, hclass⟩
    refine ⟨fun c hc => (prefixMatch_somewhere hany).mpr (hclass c hc), ⟨hleast, ?_⟩, hany⟩
    intro m hm
    cases hm

end Patterns
