/-
  File:      CryptoWallet/Requests/SearchQuery.lean
  Subject:   The text of a search in the URL of its lookup.

  The text is put into the URL as it is. What `URL(string:)` does with it is a parameter, of which
  one thing is used: it takes every URI that RFC 3986 allows.

  * `AsksFor`: a lookup is sent, and its URL has the text for the value of its only parameter.
  * `search_text_sent_iff`: the texts a search asks for.
  * `search_texts_lost`: texts it asks for another text in place of, or does not ask for at all.
-/
import CryptoWallet.Library.URI
import CryptoWallet.Requests.DoRequest

namespace CryptoWallet

open URIs

/-- A search for the text sends a lookup, and the only parameter of its URL is `query`, for the
    text in lower case. -/
def AsksFor (f : Foundation) (searchingText : String) (sortBy : TypeOfSort) : Prop :=
  ∃ url,
    (({} : APICall Unit Unit).callerStep f (.searchingRequest searchingText sortBy)).tasks =
      [.getIDs url] ∧
    HasOnlyParameter url.toList "query".toList (f.lowercased searchingText).toList

/-- The URL of the lookups. -/
def searchEndpoint : URI :=
  ⟨"https".toList, "api.coingecko.com".toList, "/api/v3/search".toList, none, none⟩

variable {f : Foundation}

/-- **A lookup is sent** exactly if `URL(string:)` takes its URL. -/
theorem lookup_sent_iff {searchingText url : String} {sortBy : TypeOfSort} :
    (({} : APICall Unit Unit).callerStep f (.searchingRequest searchingText sortBy)).tasks =
      [.getIDs url] ↔
      f.isURL (f.searchURLString searchingText) = true ∧ url = f.searchURLString searchingText := by
  by_cases h : f.isURL (f.searchURLString searchingText) = true
  · simp [APICall.callerStep, h, eq_comm]
  · simp [APICall.callerStep, h]

/-- The URL of a lookup is its endpoint and a query. -/
theorem searchURLString_toList (f : Foundation) (searchingText : String) :
    (f.searchURLString searchingText).toList =
      "https://api.coingecko.com/api/v3/search".toList ++
        '?' :: ("query".toList ++ '=' :: (f.lowercased searchingText).toList) := by
  have hprefix : "https://api.coingecko.com/api/v3/search?query=".toList =
      "https://api.coingecko.com/api/v3/search".toList ++ '?' :: ("query".toList ++ ['=']) := by
    decide
  unfold Foundation.searchURLString
  rw [String.toList_append, hprefix]
  simp only [List.append_assoc, List.cons_append, List.nil_append]

/-- **The text is read back** from the URL of its lookup. -/
theorem searchURLString_iff {searchingText : String} :
    HasOnlyParameter (f.searchURLString searchingText).toList "query".toList
        (f.lowercased searchingText).toList ↔
      ∀ c ∈ (f.lowercased searchingText).toList, isQueryCharacter c = true ∧ c ≠ '&' := by
  rw [searchURLString_toList]
  exact hasOnlyParameter_iff (u := searchEndpoint) (by decide +kernel) (by decide +kernel)
    (by decide +kernel) (by decide +kernel) _

theorem asksFor_iff {searchingText : String} {sortBy : TypeOfSort} :
    AsksFor f searchingText sortBy ↔
      f.isURL (f.searchURLString searchingText) = true ∧
        ∀ c ∈ (f.lowercased searchingText).toList, isQueryCharacter c = true ∧ c ≠ '&' := by
  unfold AsksFor
  simp only [lookup_sent_iff, ← searchURLString_iff]
  constructor
  · intro h
    obtain ⟨_, ⟨hsent, rfl⟩, hquery⟩ := h
    exact ⟨hsent, hquery⟩
  · intro h
    exact ⟨_, ⟨h.1, rfl⟩, h.2⟩

/-- **A search asks for its text** exactly if each character of the text in lower case may stand
    in a query, and none of them is `&`. -/
theorem search_text_sent_iff (f : Foundation)
    (hURL : ∀ s : String, (parse s.toList).isSome = true → f.isURL s = true)
    (searchingText : String) (sortBy : TypeOfSort) :
    AsksFor f searchingText sortBy ↔
      ∀ c ∈ (f.lowercased searchingText).toList, isQueryCharacter c = true ∧ c ≠ '&' := by
  rw [asksFor_iff, and_iff_right_iff_imp, ← searchURLString_iff]
  intro h
  obtain ⟨u, _, _, hu, _⟩ := h
  exact hURL _ (Option.isSome_of_eq_some hu)

/-- `URL(string:)` that takes the URIs that RFC 3986 allows, and nothing else. -/
def rfc3986 : Foundation :=
  ⟨visibleASCII.lowercased, visibleASCII.characters, fun s => (parse s.toList).isSome, rfl⟩

/-- A coin's name with characters of a query, in capitals. -/
theorem search_text_sent_name :
    (∀ s : String, (parse s.toList).isSome = true → rfc3986.isURL s = true) ∧
      AsksFor rfc3986 "Bitcoin/USD+2:0" .marketCap :=
  ⟨fun _ h => h, (search_text_sent_iff rfc3986 (fun _ h => h) _ _).mpr (by decide +kernel)⟩

/-- **Texts a search loses**: `&` ends the value, a triple stands for its octet, `#` begins a
    fragment, and a blank is in no URL. -/
theorem search_texts_lost :
    ¬AsksFor rfc3986 "at&t" .marketCap ∧ ¬AsksFor rfc3986 "100%25" .marketCap ∧
      ¬AsksFor rfc3986 "#1" .marketCap ∧ ¬AsksFor rfc3986 "shiba inu" .marketCap ∧
      (parse (rfc3986.searchURLString "at&t").toList).bind URI.query = some "query=at&t".toList ∧
      parameters "query=at&t".toList =
        [("query".toList, some "at".toList), ("t".toList, none)] := by
  refine ⟨?_, ?_, ?_, ?_, by decide +kernel, by decide +kernel⟩ <;> rw [asksFor_iff] <;>
    decide +kernel

end CryptoWallet
