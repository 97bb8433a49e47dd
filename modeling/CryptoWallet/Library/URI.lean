/-
  File:      CryptoWallet/Library/URI.lean
  Subject:   URIs as RFC 3986 reads them: components, query parameters, percent-encoding.

  Of the URIs those with `//` and a registered name for host: no user, port or address literal.

  * `cut`: a word cut at the first occurrence of a letter.
  * `parse`: the components of a URI, if its characters are allowed where they stand;
    `parse_append_query`: a query put after a URI that has none.
  * `percentDecode`: the octets a component stands for; `percentDecode_append`: what has no `%`
    stands for its own UTF-8; `percentDecode_length_lt`: a triple stands for less than it is.
  * `parameters`: the parameters of a query, cut at `&` and at the first `=`.
  * `hasOnlyParameter_iff`: **the values that may be put into a query as they are**.
-/
import CryptoWallet.Library.Patterns

namespace URIs

open Patterns (notMem_of_class)

/-- A property of the letters of a word is decided letter by letter, not over all of `Char`. -/
instance (priority := high) decidableForallMem {p : Char → Prop} [DecidablePred p] (w : List Char) :
    Decidable (∀ c ∈ w, p c) :=
  List.decidableBAll p w

/-! ## 1. Cutting -/

section

variable {α : Type*} [DecidableEq α]

/-- What stands before the first `c`, and what stands after it, if there is one. -/
def cut (c : α) : List α → List α × Option (List α)
  | [] => ([], none)
  | d :: w => if d = c then ([], some w) else (d :: (cut c w).1, (cut c w).2)

variable {c : α} {u w : List α}

omit [DecidableEq α] in
theorem notMem_append_cons {d : α} (hu : c ∉ u) (hd : c ≠ d) (hw : c ∉ w) : c ∉ u ++ d :: w := by
  intro h
  obtain h | h := List.mem_append.mp h
  · exact hu h
  · obtain h | h := List.mem_cons.mp h
    · exact hd h
    · exact hw h

theorem cut_append (h : c ∉ u) : cut c (u ++ w) = (u ++ (cut c w).1, (cut c w).2) := by
  induction u with
  | nil => rfl
  | cons d u ih =>
      have hd : d ≠ c := fun e => h (e ▸ List.mem_cons_self)
      rw [List.cons_append, cut, if_neg hd, ih fun hu => h (List.mem_cons_of_mem _ hu)]
      rfl

/-- A word without the letter is not cut. -/
theorem cut_of_notMem (h : c ∉ u) : cut c u = (u, none) := by
  simpa [cut] using cut_append (w := []) h

/-- A word is cut at the first of its letters. -/
theorem cut_append_cons (h : c ∉ u) : cut c (u ++ c :: w) = (u, some w) := by
  rw [cut_append h, cut, if_pos rfl, List.append_nil]

theorem cut_prefix (c : α) (w : List α) : (cut c w).1 <+: w := by
  induction w with
  | nil => exact List.prefix_rfl
  | cons d w ih =>
      rw [cut]
      split
      · exact List.nil_prefix
      · exact (List.prefix_cons_inj d).mpr ih

/-- What stands before the first `c` has none. -/
theorem notMem_cut (c : α) (w : List α) : c ∉ (cut c w).1 := by
  induction w with
  | nil => exact List.not_mem_nil
  | cons d w ih =>
      rw [cut]
      split
      · exact List.not_mem_nil
      · rename_i hd
        intro h
        obtain h | h := List.mem_cons.mp h
        · exact hd h.symm
        · exact ih h

end

/-! ## 2. Percent-encoding -/

/-- The value of a hexadecimal digit. -/
def hexValue (c : Char) : Option Nat :=
  if '0' ≤ c ∧ c ≤ '9' then some (c.toNat - '0'.toNat)
  else if 'A' ≤ c ∧ c ≤ 'F' then some (c.toNat - 'A'.toNat + 10)
  else if 'a' ≤ c ∧ c ≤ 'f' then some (c.toNat - 'a'.toNat + 10)
  else none

/-- The UTF-8 of a word. -/
def utf8 (w : List Char) : List UInt8 := w.flatMap String.utf8EncodeChar

/-- Only letters of a class, and triples of `%` and two hexadecimal digits. -/
def encoded (accepts : Char → Bool) : List Char → Bool
  | [] => true
  | '%' :: a :: b :: w => (hexValue a).isSome && (hexValue b).isSome && encoded accepts w
  | c :: w => c != '%' && accepts c && encoded accepts w

/-- The octets a word stands for: a triple for one octet, another letter for its UTF-8. -/
def percentDecode : List Char → List UInt8
  | [] => []
  | '%' :: a :: b :: w =>
      match hexValue a, hexValue b with
      | some high, some low => UInt8.ofNat (16 * high + low) :: percentDecode w
      | _, _ => utf8 ['%'] ++ percentDecode (a :: b :: w)
  | c :: w => utf8 [c] ++ percentDecode w

variable {accepts : Char → Bool} {u w : List Char} {c : Char}

theorem utf8_append (u w : List Char) : utf8 (u ++ w) = utf8 u ++ utf8 w := List.flatMap_append

theorem utf8_cons (c : Char) (w : List Char) : utf8 (c :: w) = utf8 [c] ++ utf8 w :=
  utf8_append [c] w

theorem utf8_length_pos (c : Char) : 0 < (utf8 [c]).length := by
  simpa [utf8] using c.utf8Size_pos

theorem utf8_triple_length (a b c : Char) (w : List Char) :
    (utf8 w).length + 3 ≤ (utf8 (a :: b :: c :: w)).length := by
  have ha := utf8_length_pos a
  have hb := utf8_length_pos b
  have hc := utf8_length_pos c
  rw [utf8_cons a, utf8_cons b, utf8_cons c]
  simp only [List.length_append]
  omega

theorem utf8_eq_nil : utf8 w = [] ↔ w = [] := by
  constructor
  · intro h
    cases w with
    | nil => rfl
    | cons c w =>
        have hlength := congrArg List.length h
        rw [utf8_cons, List.length_append, List.length_nil] at hlength
        have := utf8_length_pos c
        omega
  · intro h
    rw [h]
    rfl

theorem encoded_cons (hc : c ≠ '%') :
    encoded accepts (c :: w) = (accepts c && encoded accepts w) := by
  rw [encoded.eq_3 _ _ _ fun _ _ _ h => absurd h hc, bne_iff_ne.mpr hc, Bool.true_and]

theorem percentDecode_cons (hc : c ≠ '%') :
    percentDecode (c :: w) = utf8 [c] ++ percentDecode w :=
  percentDecode.eq_3 _ _ fun _ _ _ h => absurd h hc

/-- **Letters other than `%` stand for themselves.** -/
theorem percentDecode_append (h : '%' ∉ u) :
    percentDecode (u ++ w) = utf8 u ++ percentDecode w := by
  induction u with
  | nil => rfl
  | cons c u ih =>
      have hc : c ≠ '%' := fun e => h (e ▸ List.mem_cons_self)
      rw [List.cons_append, percentDecode_cons hc, ih fun hu => h (List.mem_cons_of_mem _ hu),
        utf8_cons c u, List.append_assoc]

theorem percentDecode_of_notMem (h : '%' ∉ u) : percentDecode u = utf8 u := by
  simpa [percentDecode] using percentDecode_append (w := []) h

/-- Letters other than `%` are encoded if they are of the class. -/
theorem encoded_append (h : '%' ∉ u) :
    encoded accepts (u ++ w) = (u.all accepts && encoded accepts w) := by
  induction u with
  | nil => rfl
  | cons c u ih =>
      have hc : c ≠ '%' := fun e => h (e ▸ List.mem_cons_self)
      rw [List.cons_append, encoded_cons hc, ih fun hu => h (List.mem_cons_of_mem _ hu),
        List.all_cons, Bool.and_assoc]

theorem encoded_of_notMem (h : '%' ∉ u) : encoded accepts u = u.all accepts := by
  have happend : encoded accepts (u ++ []) = (u.all accepts && encoded accepts []) :=
    encoded_append h
  simpa [encoded] using happend

theorem percentDecode_length_le (w : List Char) :
    (percentDecode w).length ≤ (utf8 w).length := by
  induction w using percentDecode.induct with
  | case1 => exact Nat.le_refl _
  | case2 a b w high low ha hb ih =>
      have h3 := utf8_triple_length '%' a b w
      rw [percentDecode, ha, hb]
      simp only [List.length_cons]
      omega
  | case3 a b w hab ih =>
      rw [utf8_cons, percentDecode]
      split
      · rename_i high low ha hb
        exact absurd hb (hab high low ha)
      · simp only [List.length_append]
        omega
  | case4 c w hc ih =>
      rw [percentDecode.eq_3 c w hc, utf8_cons c w]
      simp only [List.length_append]
      omega

/-- **A triple stands for less than it is**: what is well encoded and stands for as many octets as
    it has itself is free of `%`. -/
theorem percentDecode_length_lt (henc : encoded accepts w = true) (h : '%' ∈ w) :
    (percentDecode w).length < (utf8 w).length := by
  induction w using percentDecode.induct with
  | case1 => exact absurd h List.not_mem_nil
  | case2 a b w high low ha hb _ =>
      have h3 := utf8_triple_length '%' a b w
      have hle := percentDecode_length_le w
      rw [percentDecode, ha, hb]
      simp only [List.length_cons]
      omega
  | case3 a b w hab _ =>
      rw [encoded, Bool.and_eq_true, Bool.and_eq_true] at henc
      obtain ⟨high, hh⟩ := Option.isSome_iff_exists.mp henc.1.1
      obtain ⟨low, hl⟩ := Option.isSome_iff_exists.mp henc.1.2
      exact absurd hl (hab high low hh)
  | case4 c w hc ih =>
      rw [encoded.eq_3 _ _ _ hc, Bool.and_eq_true, Bool.and_eq_true, bne_iff_ne] at henc
      have hw : '%' ∈ w := (List.mem_cons.mp h).resolve_left henc.1.1.symm
      have hlt := ih henc.2 hw
      rw [percentDecode.eq_3 c w hc, utf8_cons c w]
      simp only [List.length_append]
      omega

/-! ## 3. Components -/

/-- `unreserved` -/
def isUnreserved (c : Char) : Bool := c.isAlphanum || ['-', '.', '_', '~'].contains c

/-- `sub-delims` -/
def isSubDelim (c : Char) : Bool :=
  ['!', '$', '&', '\'', '(', ')', '*', '+', ',', ';', '='].contains c

/-- `pchar`, the triples apart. -/
def isPathCharacter (c : Char) : Bool := isUnreserved c || isSubDelim c || c == ':' || c == '@'

/-- What a query or a fragment may have, the triples apart. -/
def isQueryCharacter (c : Char) : Bool := isPathCharacter c || c == '/' || c == '?'

/-- `scheme ":" "//" authority path [ "?" query ] [ "#" fragment ]` -/
structure URI where
  scheme : List Char
  authority : List Char
  path : List Char
  query : Option (List Char)
  fragment : Option (List Char)
  deriving DecidableEq

/-- `ALPHA *( ALPHA / DIGIT / "+" / "-" / "." )` -/
def isScheme : List Char → Bool
  | [] => false
  | c :: w => c.isAlpha && w.all fun d => d.isAlphanum || ['+', '-', '.'].contains d

/-- The characters before the query stand where they are allowed. -/
def URI.locates (u : URI) : Bool :=
  isScheme u.scheme && encoded (fun c => isUnreserved c || isSubDelim c) u.authority &&
    encoded (fun c => isPathCharacter c || c == '/') u.path

/-- Every character stands where it is allowed. -/
def URI.wellFormed (u : URI) : Bool :=
  u.locates && u.query.all (encoded isQueryCharacter) && u.fragment.all (encoded isQueryCharacter)

/-- Scheme, authority and path. -/
def hierarchy (w : List Char) (query fragment : Option (List Char)) : Option URI :=
  match cut ':' w with
  | (scheme, some ('/' :: '/' :: rest)) =>
      some ⟨scheme, rest.takeWhile (· != '/'), rest.dropWhile (· != '/'), query, fragment⟩
  | _ => none

/-- The URI a string is, if it is one. -/
def parse (w : List Char) : Option URI :=
  let start := cut '?' (cut '#' w).1
  (hierarchy start.1 start.2 (cut '#' w).2).filter URI.wellFormed

/-- The parameters of a query. -/
def parameters (query : List Char) : List (List Char × Option (List Char)) :=
  (query.splitOn '&').map (cut '=')

/-- Where a string locates its resource does not depend on its query and its fragment. -/
theorem hierarchy_eq {start : List Char} {u : URI} (h : hierarchy start none none = some u)
    (query fragment : Option (List Char)) :
    hierarchy start query fragment = some { u with query := query, fragment := fragment } := by
  unfold hierarchy at h ⊢
  split at h
  · cases h
    rfl
  · cases h

/-- **A query put after a URI that has none** is all there is up to the next `#`. -/
theorem parse_append_query {start : List Char} {u : URI} (hquery : '?' ∉ start)
    (hfragment : '#' ∉ start) (h : parse start = some u) (rest : List Char) :
    parse (start ++ '?' :: rest) =
      if encoded isQueryCharacter (cut '#' rest).1 ∧
          (cut '#' rest).2.all (encoded isQueryCharacter) = true then
        some { u with query := some (cut '#' rest).1, fragment := (cut '#' rest).2 }
      else none := by
  have hhash : '#' ∉ start ++ ['?'] := by simpa using hfragment
  have hcut : cut '#' (start ++ '?' :: rest) =
      (start ++ '?' :: (cut '#' rest).1, (cut '#' rest).2) := by
    simpa using cut_append (w := rest) hhash
  have hstart : cut '#' start = (start, none) := cut_of_notMem hfragment
  unfold parse at h ⊢
  simp only [hstart, cut_of_notMem hquery, Option.filter_eq_some_iff] at h
  simp only [hcut, cut_append_cons hquery, hierarchy_eq h.1]
  have hlocates : u.locates = true := by
    have hwell := h.2
    simp only [URI.wellFormed, Bool.and_eq_true] at hwell
    exact hwell.1.1
  have hwell : URI.wellFormed
      { u with query := some (cut '#' rest).1, fragment := (cut '#' rest).2 } =
        (encoded isQueryCharacter (cut '#' rest).1 &&
          (cut '#' rest).2.all (encoded isQueryCharacter)) := by
    show (u.locates && _ && _) = _
    rw [hlocates, Bool.true_and]
    rfl
  rw [Option.filter_some, hwell]
  simp only [Bool.and_eq_true]

/-! ## 4. Parameters -/

theorem parameters_cons {p : List Char} (h : '&' ∉ p) (w : List Char) :
    parameters (p ++ '&' :: w) = cut '=' p :: parameters w := by
  rw [parameters, List.splitOn_append_cons_self_of_not_mem h, List.map_cons]
  rfl

/-- **A query without `&` is one parameter**, and no other query is. -/
theorem parameters_eq_single_iff {query : List Char} {p : List Char × Option (List Char)} :
    parameters query = [p] ↔ '&' ∉ query ∧ cut '=' query = p := by
  unfold parameters
  constructor
  · intro h
    have hnot : '&' ∉ query := by
      intro hmem
      obtain ⟨a, b, rfl⟩ := List.append_of_mem hmem
      have hlength := congrArg List.length h
      have ha := List.length_pos_of_ne_nil (List.splitOn_ne_nil '&' a)
      have hb := List.length_pos_of_ne_nil (List.splitOn_ne_nil '&' b)
      rw [List.splitOn_append_cons_self, List.length_map, List.length_append,
        List.length_singleton] at hlength
      omega
    rw [List.splitOn_eq_singleton hnot, List.map_singleton, List.singleton_inj] at h
    exact ⟨hnot, h⟩
  · intro h
    rw [List.splitOn_eq_singleton h.1, List.map_singleton, h.2]

/-- The only parameter of the URI `w` is `name`, and its value stands for `value`. -/
def HasOnlyParameter (w name value : List Char) : Prop :=
  ∃ u query v, parse w = some u ∧ u.query = some query ∧ parameters query = [(name, some v)] ∧
    percentDecode v = utf8 value

/-- What is read back whole has neither a `%` nor a `#`. -/
theorem percentDecode_cut_iff {w : List Char} (h : encoded accepts (cut '#' w).1 = true) :
    percentDecode (cut '#' w).1 = utf8 w ↔ '%' ∉ w ∧ '#' ∉ w := by
  constructor
  · intro heq
    obtain ⟨r, hr⟩ := cut_prefix '#' w
    have hlength := congrArg List.length heq
    have hle := percentDecode_length_le (cut '#' w).1
    have hsplit : (utf8 w).length = (utf8 (cut '#' w).1).length + (utf8 r).length := by
      rw [← List.length_append, ← utf8_append, hr]
    -- nothing is cut off, since what is left stands for at most as many octets as it has
    have hnil : r = [] := utf8_eq_nil.mp (List.length_eq_zero_iff.mp (by omega))
    rw [hnil, List.append_nil] at hr
    constructor
    · intro hmem
      have hlt := percentDecode_length_lt h (hr.symm ▸ hmem)
      omega
    · have hnot := notMem_cut '#' w
      rwa [hr] at hnot
  · intro hnot
    rw [cut_of_notMem hnot.2, percentDecode_of_notMem hnot.1]

/-- **A value put into a query as it is** is read back exactly if each of its characters is
    allowed there and is not the `&` between parameters. -/
theorem hasOnlyParameter_iff {start name : List Char} {u : URI} (hquery : '?' ∉ start)
    (hfragment : '#' ∉ start) (h : parse start = some u)
    (hname : ∀ c ∈ name, isUnreserved c = true) (value : List Char) :
    HasOnlyParameter (start ++ '?' :: (name ++ '=' :: value)) name value ↔
      ∀ c ∈ value, isQueryCharacter c = true ∧ c ≠ '&' := by
  have hfree : ∀ c, isUnreserved c = false → c ∉ name := fun _ => notMem_of_class hname
  have hcut : cut '#' (name ++ '=' :: value) =
      (name ++ '=' :: (cut '#' value).1, (cut '#' value).2) := by
    rw [cut_append (hfree '#' (by decide)), cut, if_neg (by decide)]
  have hall : name.all isQueryCharacter = true := by
    refine List.all_eq_true.mpr fun c hc => ?_
    simp [isQueryCharacter, isPathCharacter, hname c hc]
  have henc : ∀ v, encoded isQueryCharacter (name ++ '=' :: v) = encoded isQueryCharacter v := by
    intro v
    rw [encoded_append (hfree '%' (by decide)), hall, encoded_cons (by decide)]
    rfl
  have hparameters : ∀ v, cut '=' (name ++ '=' :: v) = (name, some v) := fun v =>
    cut_append_cons (hfree '=' (by decide))
  unfold HasOnlyParameter
  rw [parse_append_query hquery hfragment h, hcut]
  simp only [henc]
  constructor
  · intro hread
    obtain ⟨u', query, v, hu, hq, hp, hv⟩ := hread
    obtain ⟨⟨hvalid, _⟩, hu⟩ := Option.ite_none_right_eq_some.mp hu
    obtain rfl := Option.some.inj hu
    obtain rfl := Option.some.inj hq
    rw [parameters_eq_single_iff, hparameters, Prod.mk.injEq, Option.some.injEq] at hp
    obtain ⟨hamp, -, rfl⟩ := hp
    obtain ⟨hpercent, hhash⟩ := (percentDecode_cut_iff hvalid).mp hv
    rw [cut_of_notMem hhash] at hvalid hamp
    rw [encoded_of_notMem hpercent, List.all_eq_true] at hvalid
    intro c hc
    refine ⟨hvalid c hc, ?_⟩
    rintro rfl
    exact hamp (List.mem_append_right _ (List.mem_cons_of_mem _ hc))
  · intro hvalue
    have hclass : ∀ c ∈ value, isQueryCharacter c = true := fun c hc => (hvalue c hc).1
    have hpercent : '%' ∉ value := notMem_of_class hclass (by decide)
    have hhash : '#' ∉ value := notMem_of_class hclass (by decide)
    have hvalid : encoded isQueryCharacter value = true := by
      rw [encoded_of_notMem hpercent]
      exact List.all_eq_true.mpr hclass
    have hamp : '&' ∉ name ++ '=' :: value :=
      notMem_append_cons (hfree '&' (by decide)) (by decide) fun hmem => (hvalue _ hmem).2 rfl
    refine ⟨{ u with query := some (name ++ '=' :: value), fragment := none }, _, value, ?_, rfl,
      parameters_eq_single_iff.mpr ⟨hamp, hparameters value⟩, percentDecode_of_notMem hpercent⟩
    rw [cut_of_notMem hhash, if_pos ⟨hvalid, rfl⟩]

end URIs
