/-
  File:      CryptoWallet/Wallet/Settling.lean
  Subject:   The wallet screen and the stored portfolio on one device, once everything asked for
             has been answered.

  A `Device` is the wallet (WalletViewPresenter.lean) over the store of the portfolio requests
  (Concurrency.lean): a swipe starts a deletion, a portfolio read delivers the stored document
  of that moment, a price response carries exactly the ids it was asked for.

  * `remaining`: the stored coins no deletion in flight is about. A read or a write of a deletion
    leaves it alone (`remaining_step`), a swipe removes its coin from it.
  * `DeviceInvariant`: every price request covers `remaining`; after a read taken with no deletion
    in flight `data` IS `remaining`, and with no price request waiting the rows show it.
  * `wallet_settles`: hence the screen agrees with the store at rest.
  * `wallet_unsettled`: without either condition it need not.
-/
import CryptoWallet.Firebase.Concurrency
import CryptoWallet.Wallet.Swipe

namespace CryptoWallet

open Runs Calls Keyed ReadModifyWrite

/-! ## 1. Deletions on the store -/

section Store

variable {F : Type} [SwiftDouble F]

/-- A document that reads as coins with distinct ids. -/
def Distinct (document : Document) : Prop :=
  ∃ coins : List Coin, getPortfolio (.ok document) = some ⟨coins⟩ ∧ (coins.map Coin.id).Nodup

/-- The coins of a document. -/
def coinsOf (document : Document) : List Coin :=
  ((getPortfolio (.ok document)).map Portfolio.coins).getD []

/-- The ids of the requests in flight. -/
def pending (s : Requests) : List String := s.flights.map fun f => f.request.id

/-- **The stored coins that no request in flight is about.** -/
def remaining (s : Requests) : List Coin := (coinsOf s.stored).filter (·.id ∉ pending s)

/-- What is in flight are deletions, and each is about to store what it computed from its
    snapshot. -/
structure Deleting (T : DoubleText F) (s : Requests) : Prop where
  stored : Distinct s.stored
  deletions : ∀ f ∈ s.flights, ∃ id, f.request = .delete id
  held : ∀ r snapshot new, Flight.holding r snapshot new ∈ s.flights →
    update T r snapshot = some new

theorem Distinct.coinsOf {document : Document} (h : Distinct document) :
    getPortfolio (.ok document) = some ⟨coinsOf document⟩ ∧
      ((CryptoWallet.coinsOf document).map Coin.id).Nodup := by
  obtain ⟨coins, hread, hnodup⟩ := h
  have e : CryptoWallet.coinsOf document = coins := by rw [CryptoWallet.coinsOf, hread]; rfl
  exact ⟨e ▸ hread, e ▸ hnodup⟩

/-- A write that its label names as fresh replaces the value its request had read. -/
def FreshWrite : Label Document Request → Prop
  | .write _ snapshot replaced => snapshot = replaced
  | _ => True

/-- Removing `id` from what is stored and from what is in flight leaves the rest. -/
theorem filter_remaining (coins : List Coin) (pre post : List String) (id : String) :
    (coins.filter (·.id ≠ id)).filter (·.id ∉ pre ++ post) =
      coins.filter (·.id ∉ pre ++ id :: post) := by
  rw [List.filter_filter]
  refine List.filter_congr fun coin _ => ?_
  by_cases h : coin.id = id <;> simp [h]

/-- **A deletion that leaves the store takes its coin with it**: where what is then stored is the
    rest, `remaining` is what it was. -/
theorem remaining_finish {s s' : Requests} {pre post : List (Flight Document Request)}
    {f : Flight Document Request} {id : String} (hf : s.flights = pre ++ f :: post)
    (hid : f.request.id = id) (hflights : s'.flights = pre ++ post)
    (hcoins : coinsOf s'.stored = (coinsOf s.stored).filter (·.id ≠ id)) :
    remaining s' = remaining s := by
  rw [remaining, remaining, pending, pending, hf, hflights, hcoins, List.map_append,
    List.map_append, List.map_cons, hid, filter_remaining]

/-- **A step of a deletion on the store**: the invariant goes on, and `remaining` stays. -/
theorem remaining_step {T : DoubleText F} {s s' : Requests} {e : Label Document Request}
    (h : Deleting T s) (hs : Step (update T) s e s') (hcall : ∀ r, e ≠ .call r)
    (hfresh : FreshWrite e) : Deleting T s' ∧ remaining s' = remaining s := by
  obtain ⟨hread, hnodup⟩ := h.stored.coinsOf
  have hdel : ∀ f ∈ s'.flights, ∃ id, f.request = .delete id := by
    intro f' hm
    obtain ⟨f, hm, hr⟩ := hs.request hcall hm
    exact hr ▸ h.deletions f hm
  have hheld : ∀ r a b, Flight.holding r a b ∈ s'.flights → update T r a = some b :=
    (hs.values (I := fun _ _ => True) (J := fun _ r a b => update T r a = some b)
      (fun _ _ _ _ _ hu => hu) (fun _ _ _ _ _ => trivial) (fun _ _ _ _ => trivial)
      (fun _ _ _ _ _ hu => hu) trivial h.held).2
  cases hs with
  | call r => exact absurd rfl (hcall r)
  | read pre post r new hf hu =>
      have e : pending { s with flights := pre ++ .holding r s.stored new :: post } =
          pending s := by
        simp [pending, hf, Flight.request]
      exact ⟨⟨h.stored, hdel, hheld⟩, by rw [remaining, remaining, e]⟩
  | leave pre post r hf hu =>
      obtain ⟨id, hr⟩ := h.deletions (.called r) (hf ▸ mem_middle_self)
      obtain rfl : r = .delete id := hr
      have hgone : id ∉ (coinsOf s.stored).map Coin.id := by
        intro hm
        rw [update_delete T id hread, if_pos hm] at hu
        cases hu
      exact ⟨⟨h.stored, hdel, hheld⟩,
        remaining_finish hf rfl rfl (filter_ne_of_notMem hgone).symm⟩
  | write pre post r snapshot new hf =>
      obtain ⟨id, hr⟩ := h.deletions (.holding r snapshot new) (hf ▸ mem_middle_self)
      obtain rfl : r = .delete id := hr
      have hu := h.held _ _ _ (hf ▸ mem_middle_self)
      obtain rfl : snapshot = s.stored := hfresh
      rw [update_delete T id hread] at hu
      split at hu
      · rw [Option.some.injEq] at hu
        subst hu
        have hnew : coinsOf (encode ((coinsOf s.stored).eraseP (·.id = id))) =
            (coinsOf s.stored).filter (·.id ≠ id) := by
          rw [coinsOf, getPortfolio_encode]
          exact eraseP_eq_filter hnodup id
        have hstored : Distinct (encode ((coinsOf s.stored).eraseP (·.id = id))) :=
          ⟨_, getPortfolio_encode _, hnodup.sublist (List.eraseP_sublist.map _)⟩
        exact ⟨⟨hstored, hdel, hheld⟩, remaining_finish hf rfl rfl hnew⟩
      · cases hu

/-- A new deletion takes its coin out of `remaining`. -/
theorem remaining_call {T : DoubleText F} {s : Requests} (h : Deleting T s) (id : String) :
    Deleting T { s with flights := s.flights ++ [.called (.delete id)] } ∧
      remaining { s with flights := s.flights ++ [.called (.delete id)] } =
        (remaining s).filter (·.id ≠ id) := by
  refine ⟨⟨h.stored, fun f hm => ?_, fun r a b hm => ?_⟩, ?_⟩
  · rcases List.mem_append.mp hm with hm | hm
    · exact h.deletions f hm
    · exact ⟨id, by rw [List.mem_singleton.mp hm]; rfl⟩
  · rcases List.mem_append.mp hm with hm | hm
    · exact h.held r a b hm
    · cases List.mem_singleton.mp hm
  · rw [remaining, remaining, List.filter_filter]
    refine List.filter_congr fun coin _ => ?_
    simp [pending, Flight.request, Request.id, and_comm]

end Store

/-! ## 2. The device -/

/-- The wallet screen and the store of its user's requests. -/
structure Device (F Image : Type) where
  wallet : Wallet F Image
  store : Requests
  /-- The last portfolio read so far was taken with no deletion in flight. -/
  readClean : Bool

/-- The screen before anything has happened, over a stored document. -/
def Device.launch (document : Document) : Device F Image := ⟨{}, Store.start document, false⟩

inductive DeviceEvent (F Image : Type) where
  | getData
  /-- A read of `getData` is taken and delivered. -/
  | portfolio
  | prices (n : Nat) (models : List (CoinTableViewCellViewModel F Image))
  | swipe (index : Nat)
  /-- A deletion takes a step on the store. -/
  | deletion (e : Label Document Request)

variable [SwiftDouble F]

inductive DeviceStep (T : DoubleText F) :
    Device F Image → DeviceEvent F Image → Device F Image → Prop where
  | getData {d : Device F Image} {w : Wallet F Image} (hw : WalletStep T d.wallet .getData w) :
      DeviceStep T d .getData { d with wallet := w }
  | portfolio {d : Device F Image} {w : Wallet F Image}
      (hw : WalletStep T d.wallet (.portfolio (getPortfolio (.ok d.store.stored))) w) :
      DeviceStep T d .portfolio ⟨w, d.store, d.store.flights.isEmpty⟩
  | prices {d : Device F Image} {w : Wallet F Image} (n : Nat)
      (models : List (CoinTableViewCellViewModel F Image)) {ids : List String}
      (hids : d.wallet.presenter.requests[n]? = some ids) (hperm : (models.map (·.id)).Perm ids)
      (hw : WalletStep T d.wallet (.prices n models) w) :
      DeviceStep T d (.prices n models) { d with wallet := w }
  | swipe {d : Device F Image} {w : Wallet F Image} {s : Requests} (index : Nat) {id : String}
      (hw : WalletStep T d.wallet (.swipe index) w)
      (hid : w.presenter.deletions = d.wallet.presenter.deletions ++ [id])
      (hs : Step (update T) d.store (.call (.delete id)) s) :
      DeviceStep T d (.swipe index) ⟨w, s, d.readClean⟩
  | deletion {d : Device F Image} {s : Requests} {e : Label Document Request}
      (hcall : ∀ r, e ≠ .call r) (hs : Step (update T) d.store e s) :
      DeviceStep T d (.deletion e) { d with store := s }

/-- Every write of a deletion replaces the coins array its deletion had read. -/
def FreshWrites (_ : Device F Image) : DeviceEvent F Image → Prop
  | .deletion e => FreshWrite e
  | _ => True

/-- Everything asked for has been answered. -/
def AtRest (d : Device F Image) : Prop :=
  d.store.flights = [] ∧ d.wallet.loaded = d.wallet.presenter.reads ∧
    Quiet d.wallet.presenter.requests d.wallet.answered

/-- There is one row for each coin of `data`, with its quantity. -/
def RowsShow (p : WalletViewPresenter F Image) : Prop :=
  (p.rowIds.zip (p.viewCellData.map (·.quantity))).Perm (p.data.map fun c => (c.id, c.quantity))

/-- **The screen agrees with the stored portfolio**: `data` lists its coins, and the rows show
    `data`. -/
def Settled (T : DoubleText F) (d : Device F Image) : Prop :=
  (∃ coins, getPortfolio (.ok d.store.stored) = some ⟨coins⟩ ∧
    d.wallet.presenter.data = convertData T coins) ∧ RowsShow d.wallet.presenter

/-! ## 3. The invariant -/

/-- What holds of the device in every run whose writes are fresh. -/
structure DeviceInvariant (T : DoubleText F) (d : Device F Image) : Prop where
  store : Deleting T d.store
  proper : Proper d.wallet.presenter.requests d.wallet.answered
  distinct : (d.wallet.presenter.data.map (·.id)).Nodup
  distinctRequests : ∀ ids ∈ d.wallet.presenter.requests, ids.Nodup
  /-- Before the first request there is no data; from then on it covers what remains. -/
  covered : d.wallet.presenter.data = [] ∧ d.wallet.presenter.requests = [] ∨
    ∀ c ∈ remaining d.store, c.id ∈ d.wallet.presenter.data.map (·.id)
  requested : ∀ ids ∈ d.wallet.presenter.requests, ∀ c ∈ remaining d.store, c.id ∈ ids
  clean : d.readClean = true → d.wallet.presenter.data = convertData T (remaining d.store)
  rows : d.readClean = true → Quiet d.wallet.presenter.requests d.wallet.answered →
    RowsShow d.wallet.presenter

theorem convertData_filter (T : DoubleText F) (coins : List Coin) (id : String) :
    (convertData T coins).filter (·.id ≠ id) = convertData T (coins.filter (·.id ≠ id)) := by
  rw [convertData, convertData, List.filter_map]
  rfl

/-- **A response that has every id of `data` shows `data`.** -/
theorem rowsShow_setViewData (T : DoubleText F) {p : WalletViewPresenter F Image}
    {models : List (CoinTableViewCellViewModel F Image)} (hdata : (p.data.map (·.id)).Nodup)
    (hmodels : (models.map (·.id)).Nodup) (hcover : ∀ c ∈ p.data, c.id ∈ models.map (·.id)) :
    RowsShow (p.setViewData T models) := by
  unfold RowsShow
  rw [WalletViewPresenter.setViewData_rowIds, WalletViewPresenter.setViewData_viewCellData,
    filterMap_rowFor, List.map_map, List.map_map, List.map_map, List.zip_map']
  have hperm := (join_perm hdata hmodels hcover).map fun c => (c.id, c.quantity)
  rw [List.map_map] at hperm
  exact hperm

section Invariant

variable {T : DoubleText F} {d : Device F Image}

theorem remaining_of_quiet {s : Requests} (h : s.flights = []) :
    remaining s = coinsOf s.stored := by
  simp [remaining, pending, h]

theorem remaining_mem {s : Requests} {c : Coin} (h : c ∈ remaining s) : c ∈ coinsOf s.stored :=
  (List.mem_filter.mp h).1

/-- A portfolio read: `data` covers what remains, and IS it when nothing is in flight. -/
theorem DeviceInvariant.portfolio (h : DeviceInvariant T d) {w : Wallet F Image}
    (hw : WalletStep T d.wallet (.portfolio (getPortfolio (.ok d.store.stored))) w) :
    DeviceInvariant T ⟨w, d.store, d.store.flights.isEmpty⟩ := by
  obtain ⟨hread, hnodup⟩ := h.store.stored.coinsOf
  rw [hread] at hw
  cases hw
  have hids : (convertData T (coinsOf d.store.stored)).map (·.id) =
      (coinsOf d.store.stored).map Coin.id := convertData_ids T _
  have hcover : ∀ c ∈ remaining d.store,
      c.id ∈ (convertData T (coinsOf d.store.stored)).map (·.id) := by
    intro c hc
    rw [hids]
    exact List.mem_map_of_mem (remaining_mem hc)
  constructor
  case store => exact h.store
  case proper => exact h.proper.issue _
  case distinct => exact hids ▸ hnodup
  case distinctRequests =>
      intro ids hm
      rcases List.mem_append.mp hm with hm | hm
      · exact h.distinctRequests ids hm
      · rw [List.mem_singleton.mp hm]
        exact hids ▸ hnodup
  case covered => exact Or.inr hcover
  case requested =>
      intro ids hm c hc
      rcases List.mem_append.mp hm with hm | hm
      · exact h.requested ids hm c hc
      · rw [List.mem_singleton.mp hm]
        exact hcover c hc
  case clean =>
      intro hclean
      rw [remaining_of_quiet (List.isEmpty_iff.mp hclean)]
      rfl
  case rows => exact fun _ hq => absurd hq (h.proper.not_quiet _)

/-- A price response: it was asked for all that remains, so clean `data` is shown. -/
theorem DeviceInvariant.prices (h : DeviceInvariant T d) {w : Wallet F Image} {n : Nat}
    {models : List (CoinTableViewCellViewModel F Image)} {ids : List String}
    (hids : d.wallet.presenter.requests[n]? = some ids) (hperm : (models.map (·.id)).Perm ids)
    (hw : WalletStep T d.wallet (.prices n models) w) :
    DeviceInvariant T { d with wallet := w } := by
  have hmem : ids ∈ d.wallet.presenter.requests := List.mem_of_getElem? hids
  cases hw with
  | prices _ ho =>
      refine { h with proper := h.proper.answer ho, rows := fun hclean _ => ?_ }
      have hmodels : (models.map (·.id)).Nodup :=
        hperm.nodup_iff.mpr (h.distinctRequests ids hmem)
      refine rowsShow_setViewData T h.distinct hmodels ?_
      intro c hc
      rw [h.clean hclean] at hc
      obtain ⟨coin, hcoin, rfl⟩ := List.mem_map.mp hc
      exact hperm.mem_iff.mpr (h.requested ids hmem coin hcoin)

/-- A swipe: its coin leaves `data` and what remains at once. -/
theorem DeviceInvariant.swipe (h : DeviceInvariant T d) {w : Wallet F Image} {s : Requests}
    {index : Nat} {id : String} (hw : WalletStep T d.wallet (.swipe index) w)
    (hid : w.presenter.deletions = d.wallet.presenter.deletions ++ [id])
    (hs : Step (update T) d.store (.call (.delete id)) s) :
    DeviceInvariant T ⟨w, s, d.readClean⟩ := by
  cases hs
  obtain ⟨hdel, hrem⟩ := remaining_call h.store id
  cases hw with
  | @swipe _ p hp =>
      obtain ⟨coin, hcoin, hdata, hreq, hask, -⟩ :=
        WalletViewPresenter.deleteCoinFromPortfolio_some hp
      have hid : p.deletions = d.wallet.presenter.deletions ++ [id] := hid
      obtain rfl : coin.id = id := by
        rw [hask] at hid
        simpa using hid
      have hdata' : p.data = d.wallet.presenter.data.filter (·.id ≠ coin.id) := by
        rw [hdata, eraseIdx_eq_filter h.distinct hcoin]
      have hreq' : p.requests = d.wallet.presenter.requests ++ [p.data.map (·.id)] := by
        rw [hreq, hdata]
      have hdistinct : (p.data.map (·.id)).Nodup :=
        hdata' ▸ h.distinct.sublist (List.filter_sublist.map _)
      have hcovered : ∀ c ∈ remaining d.store, c.id ∈ d.wallet.presenter.data.map (·.id) := by
        rcases h.covered with ⟨hnil, -⟩ | hc
        · rw [hnil] at hcoin
          cases hcoin
        · exact hc
      have hcover : ∀ c ∈ (remaining d.store).filter (·.id ≠ coin.id),
          c.id ∈ p.data.map (·.id) := by
        intro c hc
        obtain ⟨hc, hne⟩ := List.mem_filter.mp hc
        obtain ⟨x, hx, hxc⟩ := List.mem_map.mp (hcovered c hc)
        rw [hdata']
        exact List.mem_map.mpr ⟨x, List.mem_filter.mpr ⟨hx, by rw [hxc]; exact hne⟩, hxc⟩
      constructor
      case store => exact hdel
      case proper =>
          show Proper p.requests _
          rw [hreq']
          exact h.proper.issue _
      case distinct => exact hdistinct
      case distinctRequests =>
          intro ids hm
          have hm : ids ∈ p.requests := hm
          rw [hreq'] at hm
          rcases List.mem_append.mp hm with hm | hm
          · exact h.distinctRequests ids hm
          · exact List.mem_singleton.mp hm ▸ hdistinct
      case covered => exact Or.inr (hrem ▸ hcover)
      case requested =>
          intro ids hm c hc
          have hm : ids ∈ p.requests := hm
          rw [hrem] at hc
          rw [hreq'] at hm
          rcases List.mem_append.mp hm with hm | hm
          · exact h.requested ids hm c (List.mem_filter.mp hc).1
          · exact List.mem_singleton.mp hm ▸ hcover c hc
      case clean =>
          intro hclean
          rw [hrem, ← convertData_filter, ← h.clean hclean]
          exact hdata'
      case rows =>
          intro _ hq
          have hq : Quiet p.requests d.wallet.answered := hq
          rw [hreq'] at hq
          exact absurd hq (h.proper.not_quiet _)

/-- **Every step with fresh writes keeps the invariant.** -/
theorem device_step_invariant {d' : Device F Image} {e : DeviceEvent F Image}
    (h : DeviceInvariant T d) (hs : Guarded FreshWrites (DeviceStep T) d e d') :
    DeviceInvariant T d' := by
  obtain ⟨hfresh, hs⟩ := hs
  cases hs with
  | getData hw =>
      cases hw
      exact { h with }
  | portfolio hw => exact h.portfolio hw
  | prices n models hids hperm hw => exact h.prices hids hperm hw
  | swipe index hw hid hs => exact h.swipe hw hid hs
  | deletion hcall hs =>
      obtain ⟨hdel, hrem⟩ := remaining_step h.store hs hcall hfresh
      constructor
      case store => exact hdel
      case proper => exact h.proper
      case distinct => exact h.distinct
      case distinctRequests => exact h.distinctRequests
      case covered => exact hrem ▸ h.covered
      case requested => exact hrem ▸ h.requested
      case clean => exact hrem ▸ h.clean
      case rows => exact h.rows

end Invariant

theorem device_launch_invariant (T : DoubleText F) {document : Document} (h : Distinct document) :
    DeviceInvariant T (Device.launch document : Device F Image) where
  store := ⟨h, fun _ hm => absurd hm List.not_mem_nil, fun _ _ _ hm => absurd hm List.not_mem_nil⟩
  proper := proper_nil
  distinct := List.nodup_nil
  distinctRequests _ hm := absurd hm List.not_mem_nil
  covered := Or.inl ⟨rfl, rfl⟩
  requested _ hm := absurd hm List.not_mem_nil
  clean hc := by cases hc
  rows hc := by cases hc

/-- **The wallet settles on the stored portfolio**: at rest, when every write was fresh and the
    last portfolio read was taken with no deletion in flight. -/
theorem wallet_settles (T : DoubleText F) {document : Document} (hdoc : Distinct document)
    {es : List (DeviceEvent F Image)} {d : Device F Image}
    (h : Run (Guarded FreshWrites (DeviceStep T)) (Device.launch document) es d)
    (hrest : AtRest d) (hread : d.readClean = true) : Settled T d := by
  have hI : DeviceInvariant T d := h.invariant (device_launch_invariant T hdoc)
    fun _ _ _ hI hs => device_step_invariant hI hs
  obtain ⟨hflights, -, hquiet⟩ := hrest
  refine ⟨⟨_, hI.store.stored.coinsOf.1, ?_⟩, hI.rows hread hquiet⟩
  rw [hI.clean hread, remaining_of_quiet hflights]

/-! ## 4. Runs that settle and runs that do not -/

/-- The stored portfolio: ethereum, then bitcoin. -/
def storedPortfolio : Document := encode ethereumFirst.coins

theorem distinct_storedPortfolio : Distinct storedPortfolio :=
  ⟨_, getPortfolio_encode _, by decide⟩

/-- The document without the coin `id`. -/
def storedWithout (id : String) : Document := encode (ethereumFirst.coins.filter (·.id ≠ id))

/-- A deletion reads the document, or writes `new` over it. -/
def deletes (id : String) : Request := .delete id

/-- Ethereum is swiped away and deleted before the portfolio is read again. -/
def swipeThenReload : List (DeviceEvent ℚ Unit) :=
  [.getData, .portfolio, .swipe 0, .deletion (.read (deletes "ethereum")),
    .deletion (.write (deletes "ethereum") storedPortfolio storedPortfolio), .getData, .portfolio,
    .prices 0 [priced "bitcoin" "1", priced "ethereum" "1"], .prices 2 [priced "bitcoin" "1"],
    .prices 1 [priced "bitcoin" "1"]]

/-- The portfolio is read again before the deletion is written. -/
def reloadTooEarly : List (DeviceEvent ℚ Unit) :=
  [.getData, .portfolio, .swipe 0, .deletion (.read (deletes "ethereum")), .getData, .portfolio,
    .deletion (.write (deletes "ethereum") storedPortfolio storedPortfolio),
    .prices 0 [priced "bitcoin" "1", priced "ethereum" "1"], .prices 1 [priced "bitcoin" "1"],
    .prices 2 [priced "bitcoin" "1", priced "ethereum" "1"]]

/-- Both coins are swiped away, and both deletions read the document before either writes. -/
def overlappingDeletions : List (DeviceEvent ℚ Unit) :=
  [.getData, .portfolio, .swipe 0, .swipe 0, .deletion (.read (deletes "ethereum")),
    .deletion (.read (deletes "bitcoin")),
    .deletion (.write (deletes "ethereum") storedPortfolio storedPortfolio),
    .deletion (.write (deletes "bitcoin") storedPortfolio (storedWithout "ethereum")),
    .prices 0 [priced "bitcoin" "1", priced "ethereum" "1"], .prices 1 [priced "bitcoin" "1"],
    .prices 2 []]

theorem wallet_settles_swipe :
    ∃ d : Device ℚ Unit,
      Run (Guarded FreshWrites (DeviceStep exactText)) (Device.launch storedPortfolio)
        swipeThenReload d ∧ d.store.stored = storedWithout "ethereum" ∧ Settled exactText d := by
  have h1 : Run (Guarded FreshWrites (DeviceStep exactText))
      (Device.launch storedPortfolio : Device ℚ Unit) _ _ :=
    .single (.allow (.getData (.getData _)) trivial)
  have h2 := h1.next (.allow (.portfolio (.portfolio _ Nat.zero_lt_one)) trivial)
  have h3 := h2.next (.allow (.swipe 0 (.swipe rfl) rfl (.call _ _)) trivial)
  have h4 := h3.next (.allow (.deletion (by nofun)
    (.read [] [] (deletes "ethereum") (storedWithout "ethereum") rfl rfl)) trivial)
  have h5 := h4.next (.allow (.deletion (by nofun) (.write [] [] (deletes "ethereum") _ _ rfl)) rfl)
  have h6 := h5.next (.allow (.getData (.getData _)) trivial)
  have h7 := h6.next (.allow (.portfolio (.portfolio _ (Nat.lt_succ_self 1))) trivial)
  have h8 := h7.next (.allow (.prices 0 [priced "bitcoin" "1", priced "ethereum" "1"] rfl
    (by decide) (.prices _ ⟨rfl, by decide⟩)) trivial)
  have h9 := h8.next (.allow (.prices 2 [priced "bitcoin" "1"] rfl (by decide)
    (.prices _ ⟨rfl, by decide⟩)) trivial)
  have h10 := h9.next (.allow (.prices 1 [priced "bitcoin" "1"] rfl (by decide)
    (.prices _ ⟨rfl, by decide⟩)) trivial)
  exact ⟨_, h10, rfl, wallet_settles exactText distinct_storedPortfolio h10
    ⟨rfl, rfl, quiet_of_all (by decide)⟩ rfl⟩

theorem Settled.length {T : DoubleText ℚ} {d : Device ℚ Unit} (h : Settled T d) (coins : List Coin)
    (hs : d.store.stored = encode coins) : d.wallet.presenter.data.length = coins.length := by
  obtain ⟨⟨coins', hread, hdata⟩, -⟩ := h
  rw [hs, getPortfolio_encode, Option.some.injEq, Portfolio.mk.injEq] at hread
  rw [hdata, ← hread, convertData, List.length_map]

/-- **Without either condition the screen and the store may disagree at rest**: after a read
    taken while a deletion was in flight `data` keeps a coin the document has lost; after two
    deletions that both read before either wrote, the document keeps a coin `data` has lost. -/
theorem wallet_unsettled :
    (∃ d : Device ℚ Unit,
      Run (Guarded FreshWrites (DeviceStep exactText)) (Device.launch storedPortfolio)
        reloadTooEarly d ∧ AtRest d ∧ ¬ Settled exactText d) ∧
    ∃ d : Device ℚ Unit,
      Run (DeviceStep exactText) (Device.launch storedPortfolio) overlappingDeletions d ∧
        AtRest d ∧ d.readClean = true ∧ ¬ Settled exactText d := by
  refine ⟨?_, ?_⟩
  · have h1 : Run (Guarded FreshWrites (DeviceStep exactText))
        (Device.launch storedPortfolio : Device ℚ Unit) _ _ :=
      .single (.allow (.getData (.getData _)) trivial)
    have h2 := h1.next (.allow (.portfolio (.portfolio _ Nat.zero_lt_one)) trivial)
    have h3 := h2.next (.allow (.swipe 0 (.swipe rfl) rfl (.call _ _)) trivial)
    have h4 := h3.next (.allow (.deletion (by nofun)
      (.read [] [] (deletes "ethereum") (storedWithout "ethereum") rfl rfl)) trivial)
    have h5 := h4.next (.allow (.getData (.getData _)) trivial)
    have h6 := h5.next (.allow (.portfolio (.portfolio _ (Nat.lt_succ_self 1))) trivial)
    have h7 := h6.next (.allow (.deletion (by nofun) (.write [] [] (deletes "ethereum") _ _ rfl))
      rfl)
    have h8 := h7.next (.allow (.prices 0 [priced "bitcoin" "1", priced "ethereum" "1"] rfl
      (by decide) (.prices _ ⟨rfl, by decide⟩)) trivial)
    have h9 := h8.next (.allow (.prices 1 [priced "bitcoin" "1"] rfl
      (by decide) (.prices _ ⟨rfl, by decide⟩)) trivial)
    have h10 := h9.next (.allow (.prices 2 [priced "bitcoin" "1", priced "ethereum" "1"] rfl
      (by decide) (.prices _ ⟨rfl, by decide⟩)) trivial)
    refine ⟨_, h10, ⟨rfl, rfl, quiet_of_all (by decide)⟩, ?_⟩
    intro h
    exact absurd (h.length [⟨"bitcoin", "40000.0", "1.0"⟩] rfl) (by decide)
  · have h1 : Run (DeviceStep exactText) (Device.launch storedPortfolio : Device ℚ Unit) _ _ :=
      .single (.getData (.getData _))
    have h2 := h1.next (.portfolio (.portfolio _ Nat.zero_lt_one))
    have h3 := h2.next (.swipe 0 (.swipe rfl) rfl (.call _ _))
    have h4 := h3.next (.swipe 0 (.swipe rfl) rfl (.call _ _))
    have h5 := h4.next (.deletion (by nofun) (.read [] [.called (deletes "bitcoin")]
      (deletes "ethereum") (storedWithout "ethereum") rfl rfl))
    have h6 := h5.next (.deletion (by nofun) (.read
      [.holding (deletes "ethereum") storedPortfolio (storedWithout "ethereum")] []
      (deletes "bitcoin") (storedWithout "bitcoin") rfl rfl))
    have h7 := h6.next (.deletion (by nofun) (.write []
      [.holding (deletes "bitcoin") storedPortfolio (storedWithout "bitcoin")]
      (deletes "ethereum") _ _ rfl))
    have h8 := h7.next (.deletion (by nofun) (.write [] [] (deletes "bitcoin") _ _ rfl))
    have h9 := h8.next (.prices 0 [priced "bitcoin" "1", priced "ethereum" "1"] rfl (by decide)
      (.prices _ ⟨rfl, by decide⟩))
    have h10 := h9.next (.prices 1 [priced "bitcoin" "1"] rfl (by decide)
      (.prices _ ⟨rfl, by decide⟩))
    have h11 := h10.next (.prices 2 [] rfl (by decide)
      (.prices _ ⟨rfl, by decide⟩))
    refine ⟨_, h11, ⟨rfl, rfl, quiet_of_all (by decide)⟩, rfl, ?_⟩
    intro h
    exact absurd (h.length [⟨"ethereum", "3000.0", "2.0"⟩] rfl) (by decide)

end CryptoWallet
