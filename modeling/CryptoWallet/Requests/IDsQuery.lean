/-
  File:      CryptoWallet/Requests/IDsQuery.lean
  Subject:   The ids of coins in the URL of their markets.

  The ids are joined by hand, in one way from two ids on and in another below. Of `characters` one
  thing is used: a string of ASCII without a carriage return has a `Character` for each code point.

  * `joinedIDs_toList`: both ways give the ids with `%2C` between them.
  * `percentDecode_joined`, `encoded_joined`: what such a text stands for, and that it may stand in
    a query.
  * `ids_read_back`: **the ids are read back from either URL**, with the same other parameters.
-/
import CryptoWallet.Library.URI
import CryptoWallet.Requests.DoRequest

namespace CryptoWallet

open URIs

/-! ## 1. Ids with `%2C` between them -/

/-- Ids of one or more unreserved characters. -/
def AreSlugs (IDs : List String) : Prop :=
  ∀ id ∈ IDs, id ≠ "" ∧ ∀ c ∈ id.toList, isUnreserved c = true

/-- `Character`s of ASCII strings are their code points, carriage returns apart. -/
def HasASCIICharacters (f : Foundation) : Prop :=
  ∀ s : String, (∀ c ∈ s.toList, c.toNat < 128 ∧ c ≠ '\r') →
    f.characters s = s.toList.map String.singleton

/-- The comma, encoded. -/
def separator : List Char := ['%', '2', 'C']

/-- The ids with the encoded comma between them. -/
def joined (IDs : List String) : List Char := separator.intercalate (IDs.map String.toList)

variable {f : Foundation} {IDs : List String}

theorem isAlphanum_lt {c : Char} (h : c.isAlphanum = true) : c.toNat < 128 := by
  have hor : (decide (c.val ≥ 'A'.val ∧ c.val ≤ 'Z'.val) ||
      (c.val ≥ 'a'.val && c.val ≤ 'z'.val) || (c.val ≥ '0'.val && c.val ≤ '9'.val)) = true := h
  have hranges : (65 ≤ c.val.toNat ∧ c.val.toNat ≤ 90 ∨ 97 ≤ c.val.toNat ∧ c.val.toNat ≤ 122) ∨
      48 ≤ c.val.toNat ∧ c.val.toNat ≤ 57 := by
    simpa [UInt32.le_iff_toNat_le] using hor
  show c.val.toNat < 128
  omega

theorem isUnreserved_ascii {c : Char} (h : isUnreserved c = true) : c.toNat < 128 ∧ c ≠ '\r' := by
  constructor
  · simp only [isUnreserved, Bool.or_eq_true, List.contains_eq_mem, decide_eq_true_eq,
      List.mem_cons, List.not_mem_nil, or_false] at h
    rcases h with h | rfl | rfl | rfl | rfl
    · exact isAlphanum_lt h
    · decide
    · decide
    · decide
    · decide
  · rintro rfl
    exact absurd h (by decide)

/-- A character that is not unreserved is in no id. -/
theorem AreSlugs.notMem (h : AreSlugs IDs) {id : String} (hid : id ∈ IDs) {c : Char}
    (hc : isUnreserved c = false) : c ∉ id.toList :=
  Patterns.notMem_of_class (h id hid).2 hc

theorem joined_cons_cons (id id' : String) (IDs : List String) :
    joined (id :: id' :: IDs) = id.toList ++ (separator ++ joined (id' :: IDs)) := by
  unfold joined
  rw [List.map_cons, List.map_cons, List.intercalate_cons_cons, List.append_assoc]

theorem joined_singleton (id : String) : joined [id] = id.toList := List.intercalate_singleton

/-- A separator after each id is one between the ids and one at the end. -/
theorem flatMap_separated (hne : IDs ≠ []) :
    (IDs.flatMap fun id => id.toList ++ separator) = joined IDs ++ separator := by
  induction IDs with
  | nil => exact absurd rfl hne
  | cons id IDs ih =>
      cases IDs with
      | nil => rw [List.flatMap_singleton, joined_singleton]
      | cons id' IDs =>
          rw [List.flatMap_cons, ih (List.cons_ne_nil _ _), joined_cons_cons]
          simp only [List.append_assoc]

/-- The loop from two ids on. -/
theorem foldl_separated (s : String) :
    (IDs.foldl (fun s id => s ++ (id ++ "%2C")) s).toList =
      s.toList ++ IDs.flatMap fun id => id.toList ++ separator := by
  induction IDs generalizing s with
  | nil => simp
  | cons id IDs ih =>
      rw [List.foldl_cons, ih, String.toList_append, String.toList_append, List.flatMap_cons,
        List.append_assoc]
      rfl

/-- The characters of the joined ids are those of the ids and of the separator. -/
theorem mem_joined {c : Char} (hc : c ∈ joined IDs) :
    c ∈ separator ∨ ∃ id ∈ IDs, c ∈ id.toList := by
  have hne : IDs ≠ [] := by
    rintro rfl
    exact absurd hc List.not_mem_nil
  have hmem := flatMap_separated hne ▸ List.mem_append_left separator hc
  obtain ⟨id, hid, hc⟩ := List.mem_flatMap.mp hmem
  obtain hc | hc := List.mem_append.mp hc
  · exact Or.inr ⟨id, hid, hc⟩
  · exact Or.inl hc

/-- A character that is not unreserved is in the joined ids only from a separator. -/
theorem notMem_joined (h : AreSlugs IDs) {c : Char} (hc : isUnreserved c = false)
    (hsep : c ∉ separator) : c ∉ joined IDs := by
  intro hmem
  obtain hmem | ⟨id, hid, hmem⟩ := mem_joined hmem
  · exact hsep hmem
  · exact h.notMem hid hc hmem

/-- **Three `Character`s cut off the end** are the last separator. -/
theorem cut_separator (hf : HasASCIICharacters f) (h : AreSlugs IDs) {s : String}
    (hs : s.toList = joined IDs ++ separator) :
    (String.join ((f.characters s).rdrop 3)).toList = joined IDs := by
  have hsep : ∀ c ∈ separator, c.toNat < 128 ∧ c ≠ '\r' := by decide +kernel
  have hascii : ∀ c ∈ s.toList, c.toNat < 128 ∧ c ≠ '\r' := by
    intro c hc
    rw [hs] at hc
    obtain hc | hc := List.mem_append.mp hc
    · obtain hc | ⟨id, hid, hc⟩ := mem_joined hc
      · exact hsep c hc
      · exact isUnreserved_ascii ((h id hid).2 c hc)
    · exact hsep c hc
  rw [hf s hascii, hs, String.toList_join, List.rdrop, List.map_append]
  rw [List.take_left' (by simp [separator]), List.flatMap_map]
  simp

/-- **Both ways of joining** put the encoded comma between the ids. -/
theorem joinedIDs_toList (hf : HasASCIICharacters f) (h : AreSlugs IDs) :
    (f.joinedIDs IDs).toList = joined IDs := by
  unfold Foundation.joinedIDs
  split
  · rename_i hlength
    have hne : IDs ≠ [] := by
      rintro rfl
      exact absurd hlength (by decide)
    refine cut_separator hf h ?_
    rw [foldl_separated, flatMap_separated hne]
    rfl
  · rename_i hlength
    cases IDs with
    | nil => rfl
    | cons id IDs =>
        cases IDs with
        | nil =>
            rw [joined_singleton]
            simp
        | cons id' IDs => exact absurd (Nat.le_add_left 2 IDs.length) hlength

/-! ## 2. What the joined ids stand for -/

/-- **The joined ids stand for the ids with a comma between them.** -/
theorem percentDecode_joined (h : AreSlugs IDs) :
    percentDecode (joined IDs) = utf8 ([','].intercalate (IDs.map String.toList)) := by
  have hfree : ∀ id ∈ IDs, '%' ∉ id.toList := fun _ hid => h.notMem hid (by decide)
  clear h
  induction IDs with
  | nil => rfl
  | cons id IDs ih =>
      have hid := hfree id List.mem_cons_self
      cases IDs with
      | nil =>
          rw [joined_singleton, percentDecode_of_notMem hid, List.map_singleton,
            List.intercalate_singleton]
      | cons id' IDs =>
          have hcomma : percentDecode (separator ++ joined (id' :: IDs)) =
              utf8 [','] ++ percentDecode (joined (id' :: IDs)) := rfl
          rw [joined_cons_cons, percentDecode_append hid, hcomma,
            ih fun i hi => hfree i (List.mem_cons_of_mem _ hi)]
          simp only [List.map_cons, List.intercalate_cons_cons, utf8_append, List.append_assoc]

/-- The joined ids may stand in a query. -/
theorem encoded_joined (h : AreSlugs IDs) (w : List Char) :
    encoded isQueryCharacter (joined IDs ++ w) = encoded isQueryCharacter w := by
  have hone : ∀ id ∈ IDs, ∀ w : List Char,
      encoded isQueryCharacter (id.toList ++ w) = encoded isQueryCharacter w := by
    intro id hid w
    have hfree : '%' ∉ id.toList := h.notMem hid (by decide)
    have hall : id.toList.all isQueryCharacter = true := by
      refine List.all_eq_true.mpr fun c hc => ?_
      simp [isQueryCharacter, isPathCharacter, (h id hid).2 c hc]
    rw [encoded_append hfree, hall, Bool.true_and]
  clear h
  induction IDs with
  | nil => rfl
  | cons id IDs ih =>
      have hid := hone id List.mem_cons_self
      have htail := ih fun i hi => hone i (List.mem_cons_of_mem _ hi)
      cases IDs with
      | nil => rw [joined_singleton, hid]
      | cons id' IDs =>
          rw [joined_cons_cons, List.append_assoc, hid, List.append_assoc]
          exact htail

/-- The ids a text lists: none if it is empty, else what stands between its commas. -/
def listed (text : List Char) : List String :=
  if text = [] then [] else (text.splitOn ',').map String.ofList

/-- **Ids with a comma between them list the ids.** -/
theorem listed_intercalate (h : AreSlugs IDs) :
    listed ([','].intercalate (IDs.map String.toList)) = IDs := by
  by_cases hne : IDs = []
  · rw [hne]
    rfl
  · have hcomma : ∀ w ∈ IDs.map String.toList, ',' ∉ w := by
      intro w hw
      obtain ⟨id, hid, rfl⟩ := List.mem_map.mp hw
      exact h.notMem hid (by decide)
    have hsplit := List.splitOn_intercalate ',' hcomma (by simpa using hne)
    have htext : [','].intercalate (IDs.map String.toList) ≠ [] := by
      intro hnil
      rw [hnil, List.splitOn_nil] at hsplit
      obtain ⟨id, hid⟩ := List.exists_mem_of_ne_nil IDs hne
      have hmem : id.toList ∈ IDs.map String.toList := List.mem_map_of_mem hid
      rw [← hsplit] at hmem
      exact (h id hid).1 (String.toList_eq_nil_iff.mp (List.mem_singleton.mp hmem))
    rw [listed, if_neg htext, hsplit, List.map_map]
    simp [Function.comp_def]

/-! ## 3. The two URLs -/

/-- The URL of the markets. -/
def marketsEndpoint : URI :=
  ⟨"https".toList, "api.coingecko.com".toList, "/api/v3/coins/markets".toList, none, none⟩

/-- The parameters of a request for the markets of coins, with `v` for its ids. -/
def marketsParameters (v : List Char) (order sparkline : String) :
    List (List Char × Option (List Char)) :=
  [("vs_currency".toList, some "usd".toList), ("ids".toList, some v),
    ("order".toList, some order.toList), ("per_page".toList, some "100".toList),
    ("page".toList, some "1".toList), ("sparkline".toList, some sparkline.toList)]

/-- The URL asks for the markets of the ids. -/
def AsksForMarkets (url order sparkline : String) (IDs : List String) : Prop :=
  ∃ query v text, parse url.toList = some { marketsEndpoint with query := some query } ∧
    parameters query = marketsParameters v order sparkline ∧
    percentDecode v = utf8 text ∧ listed text = IDs

/-- A query with `v` for its ids and `rest` after them. -/
def marketsQuery (v rest : List Char) : List Char :=
  "vs_currency=usd".toList ++ '&' :: ("ids".toList ++ '=' :: (v ++ '&' :: rest))

/-- **The joined ids before any other parameters** are read back. -/
theorem asksForMarkets (h : AreSlugs IDs) {url order sparkline : String} (rest : List Char)
    (hurl : url.toList = "https://api.coingecko.com/api/v3/coins/markets".toList ++
      '?' :: marketsQuery (joined IDs) rest)
    (hhash : '#' ∉ rest) (hrest : encoded isQueryCharacter rest = true)
    (hparameters : parameters rest = (marketsParameters [] order sparkline).drop 2) :
    AsksForMarkets url order sparkline IDs := by
  have hids : '&' ∉ "ids".toList ++ '=' :: joined IDs :=
    notMem_append_cons (by decide) (by decide) (notMem_joined h (by decide) (by decide))
  have hnone : '#' ∉ marketsQuery (joined IDs) rest :=
    notMem_append_cons (by decide) (by decide) <|
      notMem_append_cons (by decide) (by decide) <|
        notMem_append_cons (notMem_joined h (by decide) (by decide)) (by decide) hhash
  have hencoded : encoded isQueryCharacter (marketsQuery (joined IDs) rest) = true := by
    unfold marketsQuery
    rw [encoded_append (u := "vs_currency=usd".toList) (by decide),
      encoded_cons (by decide), encoded_append (u := "ids".toList) (by decide),
      encoded_cons (by decide), encoded_joined h, encoded_cons (by decide), hrest]
    decide +kernel
  refine ⟨marketsQuery (joined IDs) rest, joined IDs, _, ?_, ?_, percentDecode_joined h,
    listed_intercalate h⟩
  · rw [hurl, parse_append_query (u := marketsEndpoint) (by decide) (by decide) (by decide),
      cut_of_notMem hnone, if_pos ⟨hencoded, rfl⟩]
    rfl
  · have hassoc : marketsQuery (joined IDs) rest =
        "vs_currency=usd".toList ++
          '&' :: (("ids".toList ++ '=' :: joined IDs) ++ '&' :: rest) := by
      unfold marketsQuery
      rw [List.append_assoc, List.cons_append]
    rw [hassoc, parameters_cons (by decide), parameters_cons hids, cut_append_cons (by decide),
      hparameters]
    rfl

/-- **The ids are read back from the URL of their markets**, from that of the coins of the wallet
    and from that of a search, in order and for any number of ids; the other parameters do not
    depend on the ids. -/
theorem ids_read_back (f : Foundation) (hf : HasASCIICharacters f) (IDs : List String)
    (h : AreSlugs IDs) :
    AsksForMarkets (f.favouritesURLString IDs) "market_cap_desc" "false" IDs ∧
    ∀ (newModels : SearchingModel) (sortBy : TypeOfSort), newModels.coins.map (·.id) = IDs →
      AsksForMarkets (f.searchMarketsURLString newModels sortBy) sortBy.rawValue "true" IDs := by
  have hstart : "https://api.coingecko.com/api/v3/coins/markets?vs_currency=usd&ids=".toList =
      "https://api.coingecko.com/api/v3/coins/markets".toList ++
        '?' :: ("vs_currency=usd".toList ++ '&' :: ("ids".toList ++ ['='])) := by
    decide
  constructor
  · refine asksForMarkets h "order=market_cap_desc&per_page=100&page=1&sparkline=false".toList ?_
      (by decide) (by decide +kernel) (by decide +kernel)
    unfold Foundation.favouritesURLString
    rw [String.toList_append, String.toList_append, hstart, joinedIDs_toList hf h]
    simp only [List.append_assoc, List.cons_append, List.nil_append]
    rfl
  · rintro newModels sortBy rfl
    refine asksForMarkets h
      ("order=" ++ sortBy.rawValue ++ "&per_page=100&page=1&sparkline=true").toList ?_
      (by cases sortBy <;> decide +kernel) (by cases sortBy <;> decide +kernel)
      (by cases sortBy <;> decide +kernel)
    unfold Foundation.searchMarketsURLString
    simp only [String.toList_append, hstart, joinedIDs_toList hf h, List.append_assoc,
      List.cons_append, List.nil_append]
    rfl

/-- Two ids, in the wallet and after a search. -/
theorem ids_read_back_two :
    AsksForMarkets (visibleASCII.favouritesURLString ["bitcoin", "matic-network"])
      "market_cap_desc" "false" ["bitcoin", "matic-network"] ∧
    AsksForMarkets
      (visibleASCII.searchMarketsURLString ⟨[⟨"bitcoin"⟩, ⟨"matic-network"⟩]⟩ .volume)
      "volume_desc" "true" ["bitcoin", "matic-network"] := by
  have hslugs : AreSlugs ["bitcoin", "matic-network"] := by
    unfold AreSlugs
    decide +kernel
  have h := ids_read_back visibleASCII (fun _ _ => rfl) _ hslugs
  exact ⟨h.1, h.2 ⟨[⟨"bitcoin"⟩, ⟨"matic-network"⟩]⟩ .volume rfl⟩

end CryptoWallet
