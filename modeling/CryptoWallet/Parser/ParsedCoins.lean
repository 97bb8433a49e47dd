/-
  File:      CryptoWallet/Parser/ParsedCoins.lean
  Subject:   Which lists of coins `parseToViewModels` keeps whole.

  Three things can go wrong with a coin's image, each handled in its own way: a text that is no
  URL stops the app, a download that throws drops the coin, bytes that are no image give the
  placeholder.

  * `compactMapCoins_full_iff`: as many view models as coins come out exactly when each coin
    gives its own.
  * `parse_keeps_coins_iff`: every coin comes out, with its own image or the placeholder, exactly
    when every image text is a URL whose download succeeds and every price prints.
  * `parse_drops_coin`: a coin dropped, and a list that stops the app.
-/
import CryptoWallet.CoinModelParser

namespace CryptoWallet

variable {Image : Type}

/-- The own image of the coin at a position, where there is one. -/
def Images.own (E : Images Image) (position : Nat) (url : String) : Option Image :=
  if E.isURL url then (E.contentsOf position url).bind E.decode else none

/-- The view model has the coin's data, and its image or the placeholder. -/
structure KeepsCoin (E : Images Image) (coin : CoinModel ℚ × Nat)
    (v : CoinTableViewCellViewModel ℚ Image) : Prop where
  id : v.id = coin.1.id
  name : v.name = coin.1.name
  symbol : v.symbol = coin.1.symbol
  ath : v.ath = coin.1.ath
  atl : v.atl = coin.1.atl
  image : v.image = (E.own coin.2 coin.1.image).getD E.eye

/-- **Parsing keeps every coin**: no runtime error, and one view model for each coin, in order. -/
def KeepsCoins (E : Images Image) (T : DoubleText ℚ) (models : List (CoinModel ℚ)) : Prop :=
  ∃ vs, parseToViewModels E T models = some vs ∧ List.Forall₂ (KeepsCoin E) models.zipIdx vs

/-- The image text is a URL, and its download, for the coin at a position, does not throw. -/
def Images.Downloads (E : Images Image) (position : Nat) (url : String) : Prop :=
  E.isURL url = true ∧ (E.contentsOf position url).isSome

variable {E : Images Image} {T : DoubleText ℚ}

/-- A view model carries the coin's data and the image it was given. -/
theorem viewModel_fields {model : CoinModel ℚ} {image : Image}
    {v : CoinTableViewCellViewModel ℚ Image} (h : viewModel T model image = some v) :
    v.id = model.id ∧ v.name = model.name ∧ v.symbol = model.symbol ∧ v.ath = model.ath ∧
      v.atl = model.atl ∧ v.image = image := by
  simp only [viewModel, Option.bind_eq_bind, Option.bind_eq_some_iff] at h
  obtain ⟨_, -, _, -, _, -, h⟩ := h
  cases h
  exact ⟨rfl, rfl, rfl, rfl, rfl, rfl⟩

/-- **One coin**: it gives a view model exactly when its image downloads and its numbers print. -/
theorem parseToViewModel_isSome_iff (coin : CoinModel ℚ × Nat) :
    (∃ v, parseToViewModel E T coin = some (some v)) ↔
      E.Downloads coin.2 coin.1.image ∧ Printable coin.1 := by
  unfold parseToViewModel Images.Downloads
  by_cases hurl : E.isURL coin.1.image = true
  · cases hdata : E.contentsOf coin.2 coin.1.image with
    | none => simp [hurl]
    | some imageData =>
        simp only [hurl, if_true, Option.map_eq_some_iff, Option.some.injEq, exists_eq_right,
          Option.isSome_some, and_self, true_and]
        constructor
        · intro ⟨v, hv⟩
          exact printable_of_viewModel hv
        · intro hprint
          obtain ⟨v, hv, -⟩ := viewModel_of_printable T _ hprint
          exact ⟨v, hv⟩
  · simp [hurl]

/-- The view model a coin gives is that with its own image, or the placeholder. -/
theorem viewModel_of_parse {coin : CoinModel ℚ × Nat} {v : CoinTableViewCellViewModel ℚ Image}
    (h : parseToViewModel E T coin = some (some v)) :
    viewModel T coin.1 ((E.own coin.2 coin.1.image).getD E.eye) = some v := by
  unfold parseToViewModel at h
  split at h
  · rename_i hurl
    cases hdata : E.contentsOf coin.2 coin.1.image with
    | none =>
        rw [hdata] at h
        cases h
    | some imageData =>
        rw [hdata] at h
        simp only [Option.map_eq_some_iff, Option.some.injEq, exists_eq_right] at h
        have hown : E.own coin.2 coin.1.image = E.decode imageData := by
          rw [Images.own, if_pos hurl, hdata, Option.bind_some]
        rw [hown]
        exact h
  · cases h

/-- The view model a coin gives keeps it. -/
theorem keepsCoin_of_parse {coin : CoinModel ℚ × Nat} {v : CoinTableViewCellViewModel ℚ Image}
    (h : parseToViewModel E T coin = some (some v)) : KeepsCoin E coin v := by
  obtain ⟨hid, hname, hsymbol, hath, hatl, himage⟩ := viewModel_fields (viewModel_of_parse h)
  exact ⟨hid, hname, hsymbol, hath, hatl, himage⟩

/-- No more view models than coins come out. -/
theorem length_compactMapCoins {coins : List (CoinModel ℚ × Nat)}
    {vs : List (CoinTableViewCellViewModel ℚ Image)}
    (h : compactMapCoins E T coins = some vs) : vs.length ≤ coins.length := by
  induction coins generalizing vs with
  | nil =>
      cases h
      exact le_rfl
  | cons coin coins ih =>
      obtain ⟨o, ws, -, hws, rfl⟩ := compactMapCoins_cons.mp h
      have := ih hws
      cases o <;> simp <;> omega

/-- **As many view models as coins come out exactly when each coin gives its own.** -/
theorem compactMapCoins_full_iff {coins : List (CoinModel ℚ × Nat)}
    {vs : List (CoinTableViewCellViewModel ℚ Image)} :
    compactMapCoins E T coins = some vs ∧ vs.length = coins.length ↔
      List.Forall₂ (fun c v => parseToViewModel E T c = some (some v)) coins vs := by
  constructor
  · intro ⟨h, hlen⟩
    induction coins generalizing vs with
    | nil =>
        cases h
        exact .nil
    | cons coin coins ih =>
        obtain ⟨o, ws, ho, hws, rfl⟩ := compactMapCoins_cons.mp h
        cases o with
        | none =>
            -- a dropped coin leaves too few
            have := length_compactMapCoins hws
            simp only [Option.toList_none, List.nil_append, List.length_cons] at hlen
            omega
        | some v =>
            refine .cons ho (ih hws ?_)
            simpa using hlen
  · intro h
    exact ⟨compactMapCoins_of_forall₂ h, h.length_eq.symm⟩

/-- **The lists that parsing keeps whole.** -/
theorem parse_keeps_coins_iff (E : Images Image) (T : DoubleText ℚ) (models : List (CoinModel ℚ)) :
    KeepsCoins E T models ↔
      ∀ (position : Nat) (m : CoinModel ℚ), models[position]? = some m →
        E.Downloads position m.image ∧ Printable m := by
  have hall : KeepsCoins E T models ↔
      ∃ vs, List.Forall₂ (fun c v => parseToViewModel E T c = some (some v)) models.zipIdx vs := by
    constructor
    · intro ⟨vs, hvs, hkeep⟩
      exact ⟨vs, compactMapCoins_full_iff.mp ⟨hvs, hkeep.length_eq.symm⟩⟩
    · intro ⟨vs, hvs⟩
      exact ⟨vs, compactMapCoins_of_forall₂ hvs, hvs.imp fun _ _ => keepsCoin_of_parse⟩
  rw [hall, Keyed.exists_forall₂_iff]
  constructor
  · intro h position m hm
    exact (parseToViewModel_isSome_iff (m, position)).mp
      (h _ (List.mk_mem_zipIdx_iff_getElem?.mpr hm))
  · intro h c hc
    exact (parseToViewModel_isSome_iff c).mpr (h _ _ (List.mem_zipIdx_iff_getElem?.mp hc))

/-- Bitcoin at one dollar, with its image at `image`. -/
def bitcoinWithImage (image : String) : CoinModel ℚ :=
  ⟨"bitcoin", "btc", "Bitcoin", image, 1, none, none, none, none, 2, 1, none, none⟩

/-- The texts with a scheme are URLs; the network is down. -/
def offline : Images Unit :=
  ⟨fun url => "https://".isPrefixOf url, fun _ _ => none, fun _ => none, ()⟩

/-- **A coin whose image does not download is dropped, one whose image text is no URL stops the
    app.** -/
theorem parse_drops_coin :
    (parseToViewModels offline exactText [bitcoinWithImage "https://a/b.png"] = some [] ∧
      ¬ KeepsCoins offline exactText [bitcoinWithImage "https://a/b.png"]) ∧
    (parseToViewModels offline exactText [bitcoinWithImage ""] = none ∧
      ¬ KeepsCoins offline exactText [bitcoinWithImage ""]) := by
  have hdrop : parseToViewModels offline exactText [bitcoinWithImage "https://a/b.png"] = some [] :=
    by decide +kernel
  have htrap : parseToViewModels offline exactText [bitcoinWithImage ""] = none := by
    decide +kernel
  refine ⟨⟨hdrop, ?_⟩, htrap, ?_⟩
  · intro ⟨vs, hvs, hkeep⟩
    rw [hdrop, Option.some.injEq] at hvs
    subst hvs
    cases hkeep
  · intro ⟨vs, hvs, _⟩
    rw [htrap] at hvs
    cases hvs

end CryptoWallet
