/-
  File:      CryptoWallet/Requests/Conversation.lean
  Subject:   The app and the API, from a request to the call of its completion.

  The API is not in the repository: it is any function from the parameters it decodes to the JSON
  it answers. Between a request and its completion lie the two threads of `doRequest`, the URLs
  built by hand, and the readers of the answers.

  * `Asks`: the URL is one of the endpoint, and its query decodes to the parameters.
  * `Reaches`: every URL of an endpoint is answered with what the API has for its parameters.
  * `asks_page`, `asks_coins`, `asks_search`: what the URLs ask for.
  * `conversation`: **every request is answered once, with what the API has for it**, under every
    fair schedule of the two threads.
-/
import CryptoWallet.Requests.PageQuery
import CryptoWallet.Requests.PageResponse
import CryptoWallet.Requests.SearchQuery

namespace CryptoWallet

open URIs JSONs Threads

/-! ## 1. The API -/

/-- Names and values as octets. -/
abbrev Octets := List (List UInt8 × Option (List UInt8))

/-- The parameters of a query, percent-decoded. -/
def decoded (query : List Char) : Octets :=
  (parameters query).map fun p => (percentDecode p.1, p.2.map percentDecode)

/-- Parameters as texts, in UTF-8. -/
def octets (question : List (String × String)) : Octets :=
  question.map fun p => (utf8 p.1.toList, some (utf8 p.2.toList))

/-- The URL is one of the endpoint, and its query decodes to the parameters. -/
def Asks (endpoint : URI) (url : String) (question : List (String × String)) : Prop :=
  ∃ query, parse url.toList = some { endpoint with query := some query } ∧
    decoded query = octets question

/-- What the API answers at its two endpoints. -/
structure API where
  search : Octets → JSON
  markets : Octets → JSON

/-- **The requests reach the API, and its answers the app.** -/
structure Reaches (api : API) (net : Network JSON DecodingError (CoinModel ℚ)) : Prop where
  search : ∀ url query, parse url.toList = some { searchEndpoint with query := some query } →
    net.exchange (.getIDs url) = ⟨some (api.search (decoded query)), none⟩
  markets : ∀ url query, parse url.toList = some { marketsEndpoint with query := some query } →
    net.exchange (.doRequest url) = ⟨some (api.markets (decoded query)), none⟩
  decodeCoins : net.decodeCoins = decodeCoinModels
  decodeSearchingModel : net.decodeSearchingModel = decodeSearchingModel

/-! ## 2. What the requests ask for -/

/-- The question of a page. -/
def pageQuestion (sortBy : TypeOfSort) (numberOfPage : Int) : List (String × String) :=
  [("vs_currency", "usd"), ("order", sortBy.rawValue), ("per_page", "20"),
    ("page", toString numberOfPage), ("sparkline", "true")]

/-- The question of coins by their ids. -/
def coinsQuestion (IDs : List String) (order sparkline : String) : List (String × String) :=
  [("vs_currency", "usd"), ("ids", ",".intercalate IDs), ("order", order), ("per_page", "100"),
    ("page", "1"), ("sparkline", sparkline)]

/-- The question of a lookup. -/
def searchQuestion (text : String) : List (String × String) := [("query", text)]

variable {f : Foundation} {IDs : List String}

/-- **The URL of a page asks for the page.** -/
theorem asks_page (sortBy : TypeOfSort) (numberOfPage : Int) :
    Asks marketsEndpoint (Foundation.pageURLString sortBy numberOfPage)
      (pageQuestion sortBy numberOfPage) := by
  obtain ⟨query, hparse, hparameters⟩ := page_parameters sortBy numberOfPage
  refine ⟨query, hparse, ?_⟩
  have hpage : '%' ∉ (toString numberOfPage).toList :=
    Patterns.notMem_of_class (toString_isUnreserved numberOfPage) (by decide)
  have horder : percentDecode sortBy.rawValue.toList = utf8 sortBy.rawValue.toList := by
    cases sortBy <;> decide +kernel
  rw [decoded, hparameters]
  simp only [pageParameters, pageQuestion, octets, List.map_cons, List.map_nil, Option.map_some,
    percentDecode_of_notMem hpage, horder]
  rfl

/-- A text is what it lists, with commas between. -/
theorem eq_intercalate_of_listed {text : List Char} (h : listed text = IDs) :
    text = (",".intercalate IDs).toList := by
  rw [String.toList_intercalate, ← h]
  unfold listed
  split
  · rename_i hnil
    rw [hnil]
    rfl
  · have hwords : ((text.splitOn ',').map String.ofList).map String.toList = text.splitOn ',' := by
      simp [Function.comp_def]
    rw [hwords]
    exact (List.intercalate_splitOn ',').symm

/-- What asks for the markets of ids asks for them in one parameter. -/
theorem asks_coins {url order sparkline : String} (horder : '%' ∉ order.toList)
    (hsparkline : '%' ∉ sparkline.toList) (h : AsksForMarkets url order sparkline IDs) :
    Asks marketsEndpoint url (coinsQuestion IDs order sparkline) := by
  obtain ⟨query, v, text, hparse, hparameters, hv, hlisted⟩ := h
  refine ⟨query, hparse, ?_⟩
  rw [eq_intercalate_of_listed hlisted] at hv
  rw [decoded, hparameters]
  simp only [marketsParameters, coinsQuestion, octets, List.map_cons, List.map_nil,
    Option.map_some, hv, percentDecode_of_notMem horder, percentDecode_of_notMem hsparkline]
  rfl

/-- **The URL of a lookup asks for the text** of the search in lower case. -/
theorem asks_search {searchingText : String}
    (htext : ∀ c ∈ (f.lowercased searchingText).toList, isQueryCharacter c = true ∧ c ≠ '&') :
    Asks searchEndpoint (f.searchURLString searchingText)
      (searchQuestion (f.lowercased searchingText)) := by
  set text := (f.lowercased searchingText).toList with ht
  have hclass : ∀ c ∈ text, isQueryCharacter c = true := fun c hc => (htext c hc).1
  have hfree : ∀ c, isQueryCharacter c = false → c ∉ text :=
    fun _ => Patterns.notMem_of_class hclass
  have hamp : '&' ∉ "query".toList ++ '=' :: text :=
    notMem_append_cons (by decide) (by decide) fun hmem => (htext _ hmem).2 rfl
  have hhash : '#' ∉ "query".toList ++ '=' :: text :=
    notMem_append_cons (by decide) (by decide) (hfree _ (by decide))
  have hencoded : encoded isQueryCharacter ("query".toList ++ '=' :: text) = true := by
    rw [encoded_append (by decide), encoded_cons (by decide),
      encoded_of_notMem (hfree _ (by decide)), List.all_eq_true.mpr hclass]
    decide
  refine ⟨"query".toList ++ '=' :: text, ?_, ?_⟩
  · rw [searchURLString_toList, parse_append_query (u := searchEndpoint) (by decide) (by decide)
      (by decide +kernel), cut_of_notMem hhash, if_pos ⟨hencoded, rfl⟩]
    rfl
  · rw [decoded, parameters_eq_single_iff.mpr ⟨hamp, cut_append_cons (by decide)⟩]
    simp only [searchQuestion, octets, List.map_cons, List.map_nil, Option.map_some,
      percentDecode_of_notMem (hfree '%' (by decide)), ← ht]
    rfl

/-! ## 3. The ids of the two requests for coins -/

/-- The URLs of both end in other parameters. -/
theorem asks_joined (hf : HasASCIICharacters f) (h : AreSlugs IDs) {order sparkline : String}
    (rest : String) (hhash : '#' ∉ rest.toList)
    (hrest : encoded isQueryCharacter rest.toList = true)
    (hparameters : parameters rest.toList = (marketsParameters [] order sparkline).drop 2)
    (horder : '%' ∉ order.toList) (hsparkline : '%' ∉ sparkline.toList) :
    Asks marketsEndpoint
      ("https://api.coingecko.com/api/v3/coins/markets?vs_currency=usd&ids=" ++ f.joinedIDs IDs ++
        ("&" ++ rest))
      (coinsQuestion IDs order sparkline) := by
  refine asks_coins horder hsparkline (asksForMarkets h rest.toList ?_ hhash hrest hparameters)
  have hstart : "https://api.coingecko.com/api/v3/coins/markets?vs_currency=usd&ids=".toList =
      "https://api.coingecko.com/api/v3/coins/markets".toList ++
        '?' :: ("vs_currency=usd".toList ++ '&' :: ("ids".toList ++ ['='])) := by
    decide
  simp only [String.toList_append, hstart, joinedIDs_toList hf h, List.append_assoc,
    List.cons_append, List.nil_append]
  rfl

/-- **The wallet asks for its coins.** -/
theorem asks_favourites (hf : HasASCIICharacters f) (h : AreSlugs IDs) :
    Asks marketsEndpoint (f.favouritesURLString IDs)
      (coinsQuestion IDs "market_cap_desc" "false") :=
  asks_joined hf h "order=market_cap_desc&per_page=100&page=1&sparkline=false" (by decide)
    (by decide +kernel) (by decide +kernel) (by decide) (by decide)

/-- **A search asks for the coins it has found.** -/
theorem asks_found (hf : HasASCIICharacters f) {newModels : SearchingModel}
    (h : AreSlugs (newModels.coins.map (·.id))) (sortBy : TypeOfSort) :
    Asks marketsEndpoint (f.searchMarketsURLString newModels sortBy)
      (coinsQuestion (newModels.coins.map (·.id)) sortBy.rawValue "true") := by
  have hasks : Asks marketsEndpoint _
      (coinsQuestion (newModels.coins.map (·.id)) sortBy.rawValue "true") :=
    asks_joined hf h ("order=" ++ sortBy.rawValue ++ "&per_page=100&page=1&sparkline=true")
      (by cases sortBy <;> decide +kernel) (by cases sortBy <;> decide +kernel)
      (by cases sortBy <;> decide +kernel) (by cases sortBy <;> decide) (by decide)
  have hurl : "&" ++ ("order=" ++ sortBy.rawValue ++ "&per_page=100&page=1&sparkline=true") =
      "&order=" ++ sortBy.rawValue ++ "&per_page=100&page=1&sparkline=true" := by
    cases sortBy <;> decide +kernel
  rw [hurl, ← String.append_assoc, ← String.append_assoc] at hasks
  exact hasks

/-! ## 4. The conversation -/

variable {Body Err Coin : Type}

/-- **Every fair schedule ends with one call of the completion**, with `result`, and the caller
    has returned. -/
def Completes (f : Foundation) (net : Network Body Err Coin) (requestType : TypeOfRequest)
    (result : Except Err (List Coin)) : Prop :=
  Settles (APICall.step f net requestType) {} fun c =>
    c.caller = .returned ∧ c.completions = [result]

theorem completes_iff {net : Network Body Err Coin} {requestType : TypeOfRequest}
    {result : Except Err (List Coin)} :
    Completes f net requestType result ↔
      (APICall.outcome f net requestType).caller = .returned ∧
        (APICall.outcome f net requestType).completions = [result] :=
  let h := APICall.runs_to_outcome f net requestType
  settles_iff h.1 h.2

/-- A call whose URL is built, and answered. -/
theorem finish_completions_eq {net : Network Body Err Coin} {c : APICall Err Coin}
    {url : String} {body : Body} (hc : c.completions = []) (hurl : f.isURL url = true)
    (hx : net.exchange (.doRequest url) = ⟨some body, none⟩) :
    (c.finish f net url).completions = [net.decodeCoins body] := by
  unfold APICall.finish
  rw [if_pos hurl, hx]
  exact congrArg (· ++ [net.decodeCoins body]) hc

/-- The ids that the API has for a text; none where its answer is not readable. -/
def idsFound (api : API) (text : String) : List String :=
  match decodeSearchingModel (api.search (octets (searchQuestion text))) with
  | .ok models => models.coins.map (·.id)
  | .error _ => []

variable {api : API} {net : Network JSON DecodingError (CoinModel ℚ)}

/-- A lookup whose URL asks for a text. -/
theorem lookedUp_eq (h : Reaches api net) {searchingText : String}
    (ha : Asks searchEndpoint (f.searchURLString searchingText)
      (searchQuestion (f.lowercased searchingText))) :
    ∃ models, APICall.lookedUp f net searchingText = some models ∧
      models.coins.map (·.id) = idsFound api (f.lowercased searchingText) := by
  obtain ⟨query, hparse, hquery⟩ := ha
  unfold APICall.lookedUp idsFound
  rw [h.search _ query hparse, hquery, h.decodeSearchingModel]
  show ∃ models, Option.map _ (some (decodeSearchingModel _)) = some models ∧ _
  set found := api.search (octets (searchQuestion (f.lowercased searchingText)))
  cases decodeSearchingModel found with
  | ok models => exact ⟨models, rfl, rfl⟩
  | error _ => exact ⟨⟨[]⟩, rfl, rfl⟩

/-- A call whose URL asks for markets. -/
theorem completes_finish (hURL : ∀ s : String, (parse s.toList).isSome = true → f.isURL s = true)
    (h : Reaches api net) {c : APICall DecodingError (CoinModel ℚ)} (hc : c.completions = [])
    {url : String} {question : List (String × String)} (ha : Asks marketsEndpoint url question) :
    (c.finish f net url).caller = .returned ∧
      (c.finish f net url).completions = [decodeCoinModels (api.markets (octets question))] := by
  obtain ⟨query, hparse, hquery⟩ := ha
  refine ⟨APICall.finish_caller c url, ?_⟩
  rw [finish_completions_eq hc (hURL url (Option.isSome_of_eq_some hparse))
    (h.markets url query hparse), h.decodeCoins, hquery]

/-- **What the API has for a request.** -/
def API.result (api : API) (f : Foundation) :
    TypeOfRequest → Except DecodingError (List (CoinModel ℚ))
  | .searchingRequest searchingText sortBy =>
      decodeCoinModels (api.markets (octets (coinsQuestion
        (idsFound api (f.lowercased searchingText)) sortBy.rawValue "true")))
  | .allCurrencies sortBy numberOfPage =>
      decodeCoinModels (api.markets (octets (pageQuestion sortBy numberOfPage)))
  | .favouriteCoins IDs =>
      decodeCoinModels (api.markets (octets (coinsQuestion IDs "market_cap_desc" "false")))

/-- The text of a search may stand in a URL as it is, and ids are slugs. -/
def API.Asked (api : API) (f : Foundation) : TypeOfRequest → Prop
  | .searchingRequest searchingText _ =>
      (∀ c ∈ (f.lowercased searchingText).toList, isQueryCharacter c = true ∧ c ≠ '&') ∧
        AreSlugs (idsFound api (f.lowercased searchingText))
  | .allCurrencies _ _ => True
  | .favouriteCoins IDs => AreSlugs IDs

/-- A request is answered with what the API has for it. -/
theorem completes_result (hURL : ∀ s : String, (parse s.toList).isSome = true → f.isURL s = true)
    (hf : HasASCIICharacters f) (h : Reaches api net) {r : TypeOfRequest} (hr : api.Asked f r) :
    Completes f net r (api.result f r) := by
  cases r with
  | allCurrencies sortBy numberOfPage =>
      exact completes_iff.mpr (completes_finish hURL h rfl (asks_page sortBy numberOfPage))
  | favouriteCoins IDs =>
      exact completes_iff.mpr (completes_finish hURL h rfl (asks_favourites hf hr))
  | searchingRequest searchingText sortBy =>
      obtain ⟨htext, hids⟩ := hr
      have hasks := asks_search htext
      have hu : f.isURL (f.searchURLString searchingText) = true := by
        obtain ⟨_, hparse, _⟩ := hasks
        exact hURL _ (Option.isSome_of_eq_some hparse)
      obtain ⟨models, hlooked, hmodels⟩ := lookedUp_eq h hasks
      simp only [API.result]
      rw [← hmodels] at hids ⊢
      rw [completes_iff, APICall.outcome]
      simp only [hu, if_true, hlooked]
      exact completes_finish hURL h rfl (asks_found hf hids sortBy)

/-- A request comes to one result. -/
theorem Completes.unique {Body Err Coin : Type} {net : Network Body Err Coin} {r : TypeOfRequest}
    {result result' : Except Err (List Coin)} (h : Completes f net r result)
    (h' : Completes f net r result') : result = result' := by
  have hlist := (completes_iff.mp h).2.symm.trans (completes_iff.mp h').2
  exact List.singleton_inj.mp hlist

/-- **Every request is answered once, with what the API has for it**: a page for its sort and
    number, the wallet for its ids in their order, and a search for the ids that the API has for
    its text. -/
theorem conversation (f : Foundation)
    (hURL : ∀ s : String, (parse s.toList).isSome = true → f.isURL s = true)
    (hf : HasASCIICharacters f) (api : API) (net : Network JSON DecodingError (CoinModel ℚ))
    (h : Reaches api net) :
    (∀ sortBy numberOfPage, Completes f net (.allCurrencies sortBy numberOfPage)
      (decodeCoinModels (api.markets (octets (pageQuestion sortBy numberOfPage))))) ∧
    (∀ IDs, AreSlugs IDs → Completes f net (.favouriteCoins IDs)
      (decodeCoinModels
        (api.markets (octets (coinsQuestion IDs "market_cap_desc" "false"))))) ∧
    ∀ searchingText sortBy,
      (∀ c ∈ (f.lowercased searchingText).toList, isQueryCharacter c = true ∧ c ≠ '&') →
      AreSlugs (idsFound api (f.lowercased searchingText)) →
      Completes f net (.searchingRequest searchingText sortBy)
        (decodeCoinModels (api.markets (octets (coinsQuestion
          (idsFound api (f.lowercased searchingText)) sortBy.rawValue "true")))) := by
  refine ⟨fun sortBy numberOfPage => ?_, fun IDs hids => ?_,
    fun searchingText sortBy htext hids => ?_⟩
  · exact completes_result (r := .allCurrencies sortBy numberOfPage) hURL hf h trivial
  · exact completes_result (r := .favouriteCoins IDs) hURL hf h hids
  · exact completes_result (r := .searchingRequest searchingText sortBy) hURL hf h ⟨htext, hids⟩

/-- The answer to a URL of the endpoint. -/
def answer (endpoint : URI) (respond : Octets → JSON) (url : String) :
    Exchange JSON DecodingError where
  data := (parse url.toList).bind fun u => u.query.bind fun query =>
    if u = { endpoint with query := some query } then some (respond (decoded query)) else none
  error := none

theorem answer_eq {endpoint : URI} {respond : Octets → JSON} {url : String} {query : List Char}
    (h : parse url.toList = some { endpoint with query := some query }) :
    answer endpoint respond url = ⟨some (respond (decoded query)), none⟩ := by
  simp [answer, h]

/-- A network that brings every URL to the API. -/
def API.network (api : API) : Network JSON DecodingError (CoinModel ℚ) where
  exchange
    | .getIDs url => answer searchEndpoint api.search url
    | .doRequest url => answer marketsEndpoint api.markets url
  decodeCoins := decodeCoinModels
  decodeSearchingModel := decodeSearchingModel

theorem API.reaches_network (api : API) : Reaches api api.network where
  search _ _ h := answer_eq h
  markets _ _ h := answer_eq h
  decodeCoins := rfl
  decodeSearchingModel := rfl

/-- Whether a question has a parameter with a value. -/
def hasParameter (name v : String) (question : Octets) : Bool :=
  decide ((utf8 name.toList, some (utf8 v.toList)) ∈ question)

/-- An API of one coin. -/
def bitcoinAPI : API where
  search _ := .object [("coins", .array [.object [("id", .string "bitcoin")]])]
  markets question :=
    if hasParameter "ids" "bitcoin" question then .array [.object (bitcoinObject .null)]
    else .array []

/-- The coin of that API, and its row. -/
def bitcoinCoins : List (CoinModel ℚ) := [coinIn (.object (bitcoinObject .null))]

def bitcoinRows : List (CoinTableViewCellViewModel ℚ Unit) :=
  (parseToViewModels oneImage exactText bitcoinCoins).getD []

theorem parse_bitcoinCoins :
    parseToViewModels oneImage exactText bitcoinCoins = some bitcoinRows := by
  have hsome : (parseToViewModels oneImage exactText bitcoinCoins).isSome = true := by
    decide +kernel
  obtain ⟨rows, hrows⟩ := Option.isSome_iff_exists.mp hsome
  rw [bitcoinRows, hrows, Option.getD_some]

/-- A search for bitcoin. -/
theorem conversation_bitcoin :
    ∃ models, Completes rfc3986 bitcoinAPI.network (.searchingRequest "BTC" .marketCap)
        (.ok models) ∧ models.map (·.id) = ["bitcoin"] := by
  have hids : AreSlugs (idsFound bitcoinAPI "btc") := by
    unfold AreSlugs
    decide +kernel
  have hanswer := (conversation rfc3986 (fun _ h => h) (fun _ _ => rfl) bitcoinAPI
    bitcoinAPI.network bitcoinAPI.reaches_network).2.2 "BTC" .marketCap (by decide +kernel) hids
  exact ⟨_, hanswer, rfl⟩

end CryptoWallet
