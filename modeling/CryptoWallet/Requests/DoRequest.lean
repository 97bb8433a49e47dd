/-
  File:      CryptoWallet/Requests/DoRequest.lean
  Subject:   One call of `doRequest` and the thread that calls the handlers (APICaller.swift).

  The calling thread builds the URL, which in a search waits in `while joke != 2` for the handler
  of `getIDs`; the handlers run on a thread of `URLSession`, which calls each of them once. The
  handler of `getIDs` writes `newModels` before it counts `joke` up; both threads see both.

  * `APICall`, `APICall.step`: the state of a call, and a step of either thread.
  * `outcome`: where the two threads end up; `runs_to_outcome`: only one of them can move at a
    time, so every fair schedule ends there.
  * `answersOnce_iff`: the call returns and its completion is called once, with the right result,
    exactly if its URLs are valid and every exchange ends with a body and without an error.
  * `completed_at_most_once`: no schedule calls a completion twice.
  * `offline_unanswered`: without a connection a search never returns, and a page is not answered.
-/
import CryptoWallet.Library.Threads
import CryptoWallet.Requests.URLString
import Mathlib.Data.Fintype.Defs

namespace CryptoWallet

open Threads Relation

variable {Body Err Coin : Type}

/-! ## 1. The state of a call and its steps -/

/-- The tasks of a call, by the handler they call. -/
inductive Task where
  | getIDs (url : String)
  | doRequest (url : String)
  deriving DecidableEq

/-- What a handler is called with; neither reads the response. -/
structure Exchange (Body Err : Type) where
  data : Option Body
  error : Option Err

/-- The network, and `JSONDecoder().decode` of the two kinds of bodies. -/
structure Network (Body Err Coin : Type) where
  exchange : Task → Exchange Body Err
  decodeCoins : Body → Except Err (List Coin)
  decodeSearchingModel : Body → Except Err SearchingModel

/-- What a handler calls its completion with: nothing without a body or with an error. -/
def Exchange.handler {α : Type} (x : Exchange Body Err) (decode : Body → Except Err α) :
    Option (Except Err α) :=
  match x.data, x.error with
  | some data, none => some (decode data)
  | _, _ => none

/-- Where the calling thread is. -/
inductive Caller where
  | buildURLString
  | waiting (sortBy : TypeOfSort)
  | built (urlString : String)
  | returned
  deriving DecidableEq

/-- Where the thread of `URLSession` is: between two handlers, or in the closure given to `getIDs`
    before one of its writes. -/
inductive Session where
  | idle
  | storing (models : SearchingModel)
  | counting
  deriving DecidableEq

/-- A call of `doRequest`: the two threads, the variables of `buildURLString` they share, the
    tasks resumed, how many handlers have been called, and the calls of the completion. -/
structure APICall (Err Coin : Type) where
  caller : Caller := .buildURLString
  session : Session := .idle
  joke : Nat := 1
  newModels : SearchingModel := ⟨[]⟩
  tasks : List Task := []
  called : Nat := 0
  completions : List (Except Err (List Coin)) := []

inductive Thread where
  | caller
  | session
  deriving DecidableEq, Inhabited

instance : Countable Thread :=
  Function.Injective.countable (f := fun t => decide (t = Thread.caller)) fun t u h => by
    cases t <;> cases u <;> simp_all

namespace APICall

variable (f : Foundation) (net : Network Body Err Coin) (requestType : TypeOfRequest)
variable (c : APICall Err Coin)

/-- `doRequest` up to the next read of what the other thread writes. -/
def callerStep : APICall Err Coin :=
  match c.caller with
  | .buildURLString =>
      match requestType with
      | .searchingRequest searchingText sortBy =>
          let url := f.searchURLString searchingText
          if f.isURL url then
            { c with newModels := ⟨[]⟩, joke := 1, tasks := c.tasks ++ [.getIDs url],
                     caller := .waiting sortBy }
          else { c with caller := .built "" }
      | .allCurrencies sortBy numberOfPage =>
          { c with caller := .built (Foundation.pageURLString sortBy numberOfPage) }
      | .favouriteCoins IDs => { c with caller := .built (f.favouritesURLString IDs) }
  | .waiting sortBy =>
      if c.joke ≠ 2 then c
      else { c with caller := .built (f.searchMarketsURLString c.newModels sortBy) }
  | .built urlString =>
      if f.isURL urlString then
        { c with tasks := c.tasks ++ [.doRequest urlString], caller := .returned }
      else { c with caller := .returned }
  | .returned => c

/-- The handlers, up to the next write that the other thread reads. -/
def sessionStep : APICall Err Coin :=
  match c.session with
  | .idle =>
      match c.tasks[c.called]? with
      | none => c
      | some (.getIDs url) =>
          match (net.exchange (.getIDs url)).handler net.decodeSearchingModel with
          | none => { c with called := c.called + 1 }
          | some (.ok models) => { c with called := c.called + 1, session := .storing models }
          | some (.error _) => { c with called := c.called + 1, session := .counting }
      | some (.doRequest url) =>
          match (net.exchange (.doRequest url)).handler net.decodeCoins with
          | none => { c with called := c.called + 1 }
          | some result =>
              { c with called := c.called + 1, completions := c.completions ++ [result] }
  | .storing models => { c with newModels := models, session := .counting }
  | .counting => { c with joke := c.joke + 1, session := .idle }

/-- A step of either thread. -/
def step : Thread → APICall Err Coin → APICall Err Coin
  | .caller, c => c.callerStep f requestType
  | .session, c => c.sessionStep net

/-! ## 2. Where a call ends -/

/-- A call whose URL is built, after its exchange. -/
def finish (urlString : String) : APICall Err Coin :=
  if f.isURL urlString then
    { c with
      caller := .returned, tasks := c.tasks ++ [.doRequest urlString], called := c.called + 1,
      completions := c.completions ++
        ((net.exchange (.doRequest urlString)).handler net.decodeCoins).toList }
  else { c with caller := .returned }

/-- A search that waits for its ids. -/
def asking (searchingText : String) (sortBy : TypeOfSort) : APICall Err Coin :=
  { caller := .waiting sortBy, tasks := [.getIDs (f.searchURLString searchingText)] }

/-- What the closure given to `getIDs` leaves in `newModels`, if it is called. -/
def lookedUp (searchingText : String) : Option SearchingModel :=
  ((net.exchange (.getIDs (f.searchURLString searchingText))).handler
    net.decodeSearchingModel).map fun
      | .ok models => models
      | .error _ => ⟨[]⟩

/-- A search that has its ids and has built its URL. -/
def found (searchingText : String) (sortBy : TypeOfSort) (models : SearchingModel) :
    APICall Err Coin :=
  { asking f searchingText sortBy with
    caller := .built (f.searchMarketsURLString models sortBy), joke := 2, newModels := models,
    called := 1 }

/-- **Where a call ends.** -/
def outcome : APICall Err Coin :=
  match requestType with
  | .searchingRequest searchingText sortBy =>
      if f.isURL (f.searchURLString searchingText) then
        match lookedUp f net searchingText with
        | none => { asking f searchingText sortBy with called := 1 }
        | some models =>
            (found f searchingText sortBy models).finish f net
              (f.searchMarketsURLString models sortBy)
      else finish f net { caller := .built "" } ""
  | .allCurrencies sortBy numberOfPage =>
      finish f net { caller := .built (Foundation.pageURLString sortBy numberOfPage) }
        (Foundation.pageURLString sortBy numberOfPage)
  | .favouriteCoins IDs =>
      finish f net { caller := .built (f.favouritesURLString IDs) } (f.favouritesURLString IDs)

variable {f net requestType c}

/-- The thread of `URLSession` has nothing to do. -/
def NoHandler (c : APICall Err Coin) : Prop := c.session = .idle ∧ c.tasks[c.called]? = none

theorem NoHandler.sessionStep (h : NoHandler c) : c.sessionStep net = c := by
  unfold APICall.sessionStep
  rw [h.1, h.2]

/-- The calling thread moves while there is no handler to call. -/
theorem turn_caller (f : Foundation) (net : Network Body Err Coin) (requestType : TypeOfRequest)
    (h : NoHandler c) :
    Turn (step f net requestType) c (c.callerStep f requestType) :=
  ⟨.caller, rfl, fun u hu => by
    cases u with
    | caller => exact absurd rfl hu
    | session => exact h.sessionStep⟩

/-- The calling thread waits in the loop, or has returned. -/
def Blocked (c : APICall Err Coin) : Prop :=
  c.caller = .returned ∨ ∃ sortBy, c.caller = .waiting sortBy ∧ c.joke ≠ 2

/-- Until `joke` is counted up the loop goes on. -/
theorem blocked_waiting {sortBy : TypeOfSort} (hc : c.caller = .waiting sortBy)
    (hj : c.joke = 1) : Blocked c :=
  .inr ⟨sortBy, hc, by rw [hj]; decide⟩

theorem Blocked.callerStep (h : Blocked c) : c.callerStep f requestType = c := by
  unfold APICall.callerStep
  rcases h with h | ⟨sortBy, h, hj⟩
  · rw [h]
  · rw [h]
    exact if_pos hj

/-- The handlers run while the calling thread waits. -/
theorem turn_session (f : Foundation) (net : Network Body Err Coin) (requestType : TypeOfRequest)
    (h : Blocked c) : Turn (step f net requestType) c (c.sessionStep net) :=
  ⟨.session, rfl, fun u hu => by
    cases u with
    | caller => exact h.callerStep
    | session => exact absurd rfl hu⟩

theorem resting (hn : NoHandler c) (hb : Blocked c) : Resting (step f net requestType) c := by
  intro t
  cases t with
  | caller => exact hb.callerStep
  | session => exact hn.sessionStep

/-- The handler of `doRequest`. -/
theorem sessionStep_doRequest {url : String} (hs : c.session = .idle)
    (ht : c.tasks[c.called]? = some (.doRequest url)) :
    c.sessionStep net =
      { c with called := c.called + 1,
               completions := c.completions ++
                 ((net.exchange (.doRequest url)).handler net.decodeCoins).toList } := by
  unfold sessionStep
  rw [hs, ht]
  dsimp only
  cases (net.exchange (.doRequest url)).handler net.decodeCoins with
  | none => rw [Option.toList_none, List.append_nil]
  | some result => rfl

/-- **A call whose URL is built** makes its exchange and rests. -/
theorem built_finish {urlString : String} (hc : c.caller = .built urlString)
    (hs : c.session = .idle) (hq : c.called = c.tasks.length) :
    ReflTransGen (Turn (step f net requestType)) c (c.finish f net urlString) ∧
      Resting (step f net requestType) (c.finish f net urlString) := by
  have hn : NoHandler c := ⟨hs, by rw [hq]; exact List.getElem?_eq_none (Nat.le_refl _)⟩
  have h1 := turn_caller f net requestType hn
  unfold callerStep at h1
  rw [hc] at h1
  dsimp only at h1
  unfold finish
  by_cases hu : f.isURL urlString = true
  · rw [if_pos hu] at h1 ⊢
    have ht : (c.tasks ++ [Task.doRequest urlString])[c.called]? = some (.doRequest urlString) := by
      rw [hq, List.getElem?_concat_length]
    let sent : APICall Err Coin :=
      { c with tasks := c.tasks ++ [.doRequest urlString], caller := .returned }
    have h2 : Turn (step f net requestType) sent (sent.sessionStep net) :=
      turn_session f net requestType (.inl rfl)
    rw [sessionStep_doRequest (c := sent) hs ht] at h2
    refine ⟨(ReflTransGen.single h1).tail h2, resting ⟨hs, ?_⟩ (.inl rfl)⟩
    exact List.getElem?_eq_none (by simp [hq])
  · rw [if_neg hu] at h1 ⊢
    exact ⟨.single h1, resting ⟨hn.1, hn.2⟩ (.inl rfl)⟩

/-- After `newModels` is written, `joke` is counted up and the loop ends. -/
theorem counting_turns (searchingText : String) (sortBy : TypeOfSort) (models : SearchingModel) :
    ReflTransGen (Turn (step f net requestType))
      { asking f searchingText sortBy with
        called := 1, session := .counting, newModels := models }
      (found f searchingText sortBy models) := by
  have h1 := turn_session f net requestType
    (c := { asking f searchingText sortBy with
            called := 1, session := .counting, newModels := models })
    (blocked_waiting rfl rfl)
  have h2 := turn_caller f net requestType
    (c := { asking f searchingText sortBy with
            called := 1, newModels := models, joke := 2 }) ⟨rfl, rfl⟩
  exact (ReflTransGen.single h1).tail h2

/-- The handler of `getIDs`. -/
theorem turn_asking (f : Foundation) (net : Network Body Err Coin) (requestType : TypeOfRequest)
    (searchingText : String) (sortBy : TypeOfSort) :
    Turn (step f net requestType) (asking f searchingText sortBy)
      (match (net.exchange (.getIDs (f.searchURLString searchingText))).handler
          net.decodeSearchingModel with
        | none => { asking f searchingText sortBy with called := 1 }
        | some (.ok models) =>
            { asking f searchingText sortBy with called := 1, session := .storing models }
        | some (.error _) =>
            { asking f searchingText sortBy with called := 1, session := .counting }) :=
  turn_session f net requestType (blocked_waiting rfl rfl)

/-- A search whose `getIDs` returns before its completion waits for ever. -/
theorem search_waits {searchingText : String} (sortBy : TypeOfSort)
    (h : lookedUp f net searchingText = none) :
    ReflTransGen (Turn (step f net requestType)) (asking f searchingText sortBy)
        { asking f searchingText sortBy with called := 1 } ∧
      Resting (step f net requestType)
        { asking f searchingText sortBy with called := 1 } := by
  have hx := Option.map_eq_none_iff.mp h
  have h1 := turn_asking f net requestType searchingText sortBy
  rw [hx] at h1
  exact ⟨.single h1, resting ⟨rfl, rfl⟩ (blocked_waiting rfl rfl)⟩

/-- **A search that gets its ids** builds its URL from them. -/
theorem search_found {searchingText : String} (sortBy : TypeOfSort) {models : SearchingModel}
    (h : lookedUp f net searchingText = some models) :
    ReflTransGen (Turn (step f net requestType)) (asking f searchingText sortBy)
      (found f searchingText sortBy models) := by
  obtain ⟨result, hx, rfl⟩ := Option.map_eq_some_iff.mp h
  have h1 := turn_asking f net requestType searchingText sortBy
  rw [hx] at h1
  cases result with
  | error => exact (counting_turns searchingText sortBy ⟨[]⟩).head h1
  | ok models =>
      have h2 := turn_session f net requestType
        (c := { asking f searchingText sortBy with called := 1, session := .storing models })
        (blocked_waiting rfl rfl)
      exact ((counting_turns searchingText sortBy models).head h2).head h1

/-- A call whose URL is built returns. -/
theorem finish_caller (c : APICall Err Coin) (urlString : String) :
    (c.finish f net urlString).caller = .returned := by
  unfold finish
  split <;> rfl

/-- **Where a search ends**: with an invalid URL, in the wait for its ids, or with its coins. -/
theorem outcome_search (f : Foundation) (net : Network Body Err Coin) (searchingText : String)
    (sortBy : TypeOfSort) :
    (¬ f.isURL (f.searchURLString searchingText) = true ∧
      outcome f net (.searchingRequest searchingText sortBy) =
        finish f net { caller := .built "" } "") ∨
    (f.isURL (f.searchURLString searchingText) = true ∧
      lookedUp f net searchingText = none ∧
      outcome f net (.searchingRequest searchingText sortBy) =
        { asking f searchingText sortBy with called := 1 }) ∨
    f.isURL (f.searchURLString searchingText) = true ∧
      ∃ models, lookedUp f net searchingText = some models ∧
        outcome f net (.searchingRequest searchingText sortBy) =
          (found f searchingText sortBy models).finish f net
            (f.searchMarketsURLString models sortBy) := by
  unfold outcome
  dsimp only
  by_cases hu : f.isURL (f.searchURLString searchingText) = true
  · rw [if_pos hu]
    cases hx : lookedUp f net searchingText with
    | none => exact .inr (.inl ⟨hu, rfl, rfl⟩)
    | some models => exact .inr (.inr ⟨hu, models, rfl, rfl⟩)
  · exact .inl ⟨hu, if_neg hu⟩

/-- **The two threads of a call take turns until they rest in `outcome`.** -/
theorem runs_to_outcome (f : Foundation) (net : Network Body Err Coin)
    (requestType : TypeOfRequest) :
    ReflTransGen (Turn (step f net requestType)) {} (outcome f net requestType) ∧
      Resting (step f net requestType) (outcome f net requestType) := by
  have h0 : Turn (step f net requestType) {} (callerStep f requestType {}) :=
    turn_caller f net requestType ⟨rfl, rfl⟩
  -- the URL is built at once, or the search asks for its ids first
  have hbuilt : ∀ u, callerStep f requestType {} = ({ caller := .built u } : APICall Err Coin) →
      outcome f net requestType = finish f net { caller := .built u } u →
      ReflTransGen (Turn (step f net requestType)) {} (outcome f net requestType) ∧
        Resting (step f net requestType) (outcome f net requestType) := by
    intro u hc ho
    rw [hc] at h0
    rw [ho]
    exact (built_finish rfl rfl rfl).imp_left (·.head h0)
  cases requestType with
  | allCurrencies sortBy numberOfPage => exact hbuilt _ rfl rfl
  | favouriteCoins IDs => exact hbuilt _ rfl rfl
  | searchingRequest searchingText sortBy =>
      have hasking : f.isURL (f.searchURLString searchingText) = true →
          callerStep f (.searchingRequest searchingText sortBy) {} =
            (asking f searchingText sortBy : APICall Err Coin) := fun hu => if_pos hu
      rcases outcome_search f net searchingText sortBy with
        ⟨hu, e⟩ | ⟨hu, hx, e⟩ | ⟨hu, models, hx, e⟩
      · exact hbuilt "" (if_neg hu) e
      · rw [e]
        exact (search_waits sortBy hx).imp_left (·.head (hasking hu ▸ h0))
      · rw [e]
        exact (built_finish rfl rfl rfl).imp_left fun h =>
          ((search_found sortBy hx).trans h).head (hasking hu ▸ h0)

end APICall

/-! ## 3. Which calls answer -/

/-- The exchange ends with a body and without an error. -/
def Exchange.Ends (x : Exchange Body Err) : Prop := (∃ body, x.data = some body) ∧ x.error = none

/-- The exchange ends with a body that decodes to `result`. -/
def Exchange.Decodes {α : Type} (x : Exchange Body Err) (decode : Body → Except Err α)
    (result : α) : Prop :=
  ∃ body, x.data = some body ∧ x.error = none ∧ decode body = .ok result

theorem Exchange.handler_eq_some_iff {α : Type} {x : Exchange Body Err}
    {decode : Body → Except Err α} {result : Except Err α} :
    x.handler decode = some result ↔
      ∃ body, x.data = some body ∧ x.error = none ∧ decode body = result := by
  obtain ⟨data, error⟩ := x
  cases data <;> cases error <;> simp [handler]

theorem Exchange.exists_handler_iff {α : Type} {x : Exchange Body Err}
    (decode : Body → Except Err α) : (∃ result, x.handler decode = some result) ↔ x.Ends := by
  simp [handler_eq_some_iff, Ends]

theorem exists_lookedUp_iff {f : Foundation} {net : Network Body Err Coin}
    {searchingText : String} :
    (∃ models, APICall.lookedUp f net searchingText = some models) ↔
      (net.exchange (.getIDs (f.searchURLString searchingText))).Ends := by
  rw [← Exchange.exists_handler_iff net.decodeSearchingModel]
  unfold APICall.lookedUp
  cases (net.exchange (.getIDs (f.searchURLString searchingText))).handler
    net.decodeSearchingModel <;> simp

/-- **The call has returned, and its completion has been called once**: with success for a body
    that decodes, and with failure otherwise. -/
def AnsweredOnce (net : Network Body Err Coin) (c : APICall Err Coin) : Prop :=
  c.caller = .returned ∧ ∃ result, c.completions = [result] ∧
    ∀ coins, result = .ok coins ↔
      ∃ url, Task.doRequest url ∈ c.tasks ∧
        (net.exchange (.doRequest url)).Decodes net.decodeCoins coins

/-- **Every fair schedule of the two threads answers the request once, for good.** -/
def AnswersOnce (f : Foundation) (net : Network Body Err Coin) (requestType : TypeOfRequest) :
    Prop :=
  Settles (APICall.step f net requestType) {} (AnsweredOnce net)

/-- The URL of the coins is valid, and its exchange ends with a body and without an error. -/
def CoinsArrive (f : Foundation) (net : Network Body Err Coin) (urlString : String) : Prop :=
  f.isURL urlString = true ∧ (net.exchange (.doRequest urlString)).Ends

/-- **The URLs of a request are valid and its exchanges end** with a body and without an error. -/
def ExchangesEnd (f : Foundation) (net : Network Body Err Coin) : TypeOfRequest → Prop
  | .searchingRequest searchingText sortBy =>
      f.isURL (f.searchURLString searchingText) = true ∧
        (net.exchange (.getIDs (f.searchURLString searchingText))).Ends ∧
        ∀ models ∈ APICall.lookedUp f net searchingText,
          CoinsArrive f net (f.searchMarketsURLString models sortBy)
  | .allCurrencies sortBy numberOfPage =>
      CoinsArrive f net (Foundation.pageURLString sortBy numberOfPage)
  | .favouriteCoins IDs => CoinsArrive f net (f.favouritesURLString IDs)

section Answers

variable {f : Foundation} {net : Network Body Err Coin} {requestType : TypeOfRequest}

theorem answersOnce_iff_outcome :
    AnswersOnce f net requestType ↔ AnsweredOnce net (APICall.outcome f net requestType) :=
  let h := APICall.runs_to_outcome f net requestType
  settles_iff h.1 h.2

/-- A call that has not called its completion has not answered. -/
theorem not_answeredOnce {c : APICall Err Coin} (hc : c.completions = []) :
    ¬ AnsweredOnce net c := by
  intro ⟨_, result, hr, _⟩
  rw [hc] at hr
  cases hr

/-- A call whose URL is built answers exactly if the coins arrive. -/
theorem answeredOnce_finish {c : APICall Err Coin} (hc : c.completions = [])
    (ht : ∀ url, Task.doRequest url ∉ c.tasks) (urlString : String) :
    AnsweredOnce net (c.finish f net urlString) ↔ CoinsArrive f net urlString := by
  unfold APICall.finish CoinsArrive
  by_cases hu : f.isURL urlString = true
  · rw [if_pos hu, ← Exchange.exists_handler_iff net.decodeCoins]
    simp only [AnsweredOnce, hc, hu, true_and, List.nil_append, List.mem_append,
      List.mem_singleton, ht, false_or, Task.doRequest.injEq, exists_eq_left]
    constructor
    · intro ⟨result, hr, _⟩
      exact ⟨result, Option.toList_eq_singleton_iff.mp hr⟩
    · intro ⟨result, hr⟩
      refine ⟨result, Option.toList_eq_singleton_iff.mpr hr, fun coins => ?_⟩
      rw [Exchange.Decodes, ← Exchange.handler_eq_some_iff, hr, Option.some.injEq]
  · rw [if_neg hu]
    exact iff_of_false (not_answeredOnce hc) fun h => hu h.1

/-- **Where a search ends, it has answered** exactly if its exchanges end. -/
theorem answeredOnce_search (searchingText : String) (sortBy : TypeOfSort) :
    AnsweredOnce net (APICall.outcome f net (.searchingRequest searchingText sortBy)) ↔
      ExchangesEnd f net (.searchingRequest searchingText sortBy) := by
  rcases APICall.outcome_search f net searchingText sortBy with
    ⟨hu, e⟩ | ⟨hu, hx, e⟩ | ⟨hu, models, hx, e⟩ <;> rw [e]
  · rw [answeredOnce_finish rfl (fun _ => List.not_mem_nil)]
    exact iff_of_false (fun h => Bool.false_ne_true (f.isURL_empty.symm.trans h.1))
      fun h => hu h.1
  · refine iff_of_false (not_answeredOnce rfl) fun h => ?_
    obtain ⟨models, hm⟩ := exists_lookedUp_iff.mpr h.2.1
    rw [hx] at hm
    cases hm
  · rw [answeredOnce_finish rfl (by simp [APICall.found, APICall.asking])]
    exact ⟨fun h => ⟨hu, exists_lookedUp_iff.mp ⟨models, hx⟩,
        fun m hm => Option.some.inj (hx.symm.trans hm) ▸ h⟩, fun h => h.2.2 models hx⟩

/-- **A request is answered exactly once** under every fair schedule, with the right result,
    exactly if its URLs are valid and its exchanges end with a body and without an error. -/
theorem answersOnce_iff (f : Foundation) (net : Network Body Err Coin)
    (requestType : TypeOfRequest) :
    AnswersOnce f net requestType ↔ ExchangesEnd f net requestType := by
  rw [answersOnce_iff_outcome]
  cases requestType with
  | searchingRequest searchingText sortBy => exact answeredOnce_search searchingText sortBy
  | allCurrencies sortBy numberOfPage => exact answeredOnce_finish rfl (fun _ => List.not_mem_nil) _
  | favouriteCoins IDs => exact answeredOnce_finish rfl (fun _ => List.not_mem_nil) _

/-- Strings of visible ASCII characters, each of them a `Character`. -/
def visibleASCII : Foundation :=
  ⟨fun s => String.ofList (s.toList.map Char.toLower), fun s => s.toList.map String.singleton,
    fun s => !s.isEmpty && s.toList.all fun c => '!' ≤ c && c ≤ '~', rfl⟩

/-- No connection: every exchange ends with an error. -/
def noConnection : Network String String String :=
  ⟨fun _ => ⟨none, some "The Internet connection appears to be offline."⟩, fun body => .ok [body],
    fun body => .ok ⟨[⟨body⟩]⟩⟩

/-- **Without a connection nothing is answered**: a search never returns, and a page returns
    without a call of its completion. -/
theorem offline_unanswered :
    ¬ AnswersOnce visibleASCII noConnection (.searchingRequest "btc" .marketCap) ∧
      ¬ AnswersOnce visibleASCII noConnection (.allCurrencies .marketCap 1) := by
  constructor
  · rw [answersOnce_iff_outcome, answeredOnce_search]
    intro h
    cases h.2.1.2
  · rw [answersOnce_iff_outcome]
    intro h
    have harrive := (answeredOnce_finish rfl (fun _ => List.not_mem_nil) _).mp h
    cases harrive.2.2

/-- **A search returns** under every fair schedule unless its `getIDs` has a valid URL and an
    exchange without a body or with an error; then the loop goes on for good, with no completion
    called. -/
theorem search_returns_iff (f : Foundation) (net : Network Body Err Coin) (searchingText : String)
    (sortBy : TypeOfSort) :
    (Settles (APICall.step f net (.searchingRequest searchingText sortBy)) {}
        (fun c => c.caller = .returned) ↔
      (f.isURL (f.searchURLString searchingText) = true →
        (net.exchange (.getIDs (f.searchURLString searchingText))).Ends)) ∧
    (f.isURL (f.searchURLString searchingText) = true →
      ¬ (net.exchange (.getIDs (f.searchURLString searchingText))).Ends →
      Settles (APICall.step f net (.searchingRequest searchingText sortBy)) {}
        fun c => c.caller = .waiting sortBy ∧ c.joke ≠ 2 ∧ c.completions = []) := by
  have hrun := APICall.runs_to_outcome f net (.searchingRequest searchingText sortBy)
  rw [settles_iff hrun.1 hrun.2, settles_iff hrun.1 hrun.2, ← exists_lookedUp_iff]
  rcases APICall.outcome_search f net searchingText sortBy with
    ⟨hu, e⟩ | ⟨hu, hx, e⟩ | ⟨hu, models, hx, e⟩ <;> rw [e]
  · exact ⟨iff_of_true (APICall.finish_caller _ _) fun h => absurd h hu, fun h => absurd h hu⟩
  · refine ⟨by simp [APICall.asking, hu, hx], fun _ _ => ⟨rfl, ?_, rfl⟩⟩
    show 1 ≠ 2
    decide
  · exact ⟨iff_of_true (APICall.finish_caller _ _) fun _ => ⟨models, hx⟩,
      fun _ h => absurd ⟨models, hx⟩ h⟩

/-- The calling thread calls no completion. -/
theorem callerStep_completions (f : Foundation) (requestType : TypeOfRequest)
    (c : APICall Err Coin) : (c.callerStep f requestType).completions = c.completions := by
  unfold APICall.callerStep
  cases c.caller with
  | returned => rfl
  | waiting sortBy =>
      dsimp only
      split <;> rfl
  | built urlString =>
      dsimp only
      split <;> rfl
  | buildURLString =>
      cases requestType with
      | allCurrencies sortBy numberOfPage => rfl
      | favouriteCoins IDs => rfl
      | searchingRequest searchingText sortBy =>
          dsimp only
          split <;> rfl

/-- A handler calls a completion or none. -/
theorem sessionStep_completions (net : Network Body Err Coin) (c : APICall Err Coin) :
    c.completions <+: (c.sessionStep net).completions := by
  unfold APICall.sessionStep
  cases c.session with
  | storing models => exact List.prefix_refl _
  | counting => exact List.prefix_refl _
  | idle =>
      dsimp only
      split
      · exact List.prefix_refl _
      · split <;> exact List.prefix_refl _
      · split
        · exact List.prefix_refl _
        · exact List.prefix_append _ _

/-- Calls of a completion are never taken back. -/
theorem turns_completions {c d : APICall Err Coin}
    (h : ReflTransGen (Turn (APICall.step f net requestType)) c d) :
    c.completions <+: d.completions := by
  induction h with
  | refl => exact List.prefix_refl _
  | tail _ hturn ih =>
      obtain ⟨t, rfl, -⟩ := hturn
      cases t with
      | caller => exact ih.trans (callerStep_completions f requestType _ ▸ List.prefix_refl _)
      | session => exact ih.trans (sessionStep_completions net _)

theorem finish_completions {c : APICall Err Coin} (hc : c.completions = []) (urlString : String) :
    (c.finish f net urlString).completions.length ≤ 1 := by
  unfold APICall.finish
  split
  · show (c.completions ++ _).length ≤ 1
    rw [hc, List.nil_append]
    exact Option.length_toList_le
  · rw [show _ = c.completions from rfl, hc]
    exact Nat.zero_le 1

theorem outcome_completions (f : Foundation) (net : Network Body Err Coin)
    (requestType : TypeOfRequest) :
    (APICall.outcome f net requestType).completions.length ≤ 1 := by
  cases requestType with
  | allCurrencies sortBy numberOfPage => exact finish_completions rfl _
  | favouriteCoins IDs => exact finish_completions rfl _
  | searchingRequest searchingText sortBy =>
      rcases APICall.outcome_search f net searchingText sortBy with
        ⟨hu, e⟩ | ⟨hu, hx, e⟩ | ⟨hu, models, hx, e⟩ <;> rw [e]
      · exact finish_completions rfl _
      · exact Nat.zero_le 1
      · exact finish_completions rfl _

/-- **A completion is never called twice**, under any schedule and whatever the network does. -/
theorem completed_at_most_once (f : Foundation) (net : Network Body Err Coin)
    (requestType : TypeOfRequest) (sched : ℕ → Thread) (n : ℕ) :
    (trace (APICall.step f net requestType) sched {} n).completions.length ≤ 1 := by
  have hrun := APICall.runs_to_outcome f net requestType
  have hto := turns_completions (trace_toward hrun.1 hrun.2 sched n)
  exact hto.length_le.trans (outcome_completions f net requestType)

end Answers

end CryptoWallet
