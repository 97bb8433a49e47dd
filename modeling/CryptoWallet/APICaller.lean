/-
  File:      CryptoWallet/APICaller.lean
  Subject:   The requests of the app and the sorts they carry (APICaller.swift, Constants.swift).

  * `sortOfRow_surjective`: every sort is offered by a row of the picker.
-/
import Mathlib.Data.List.Basic

namespace CryptoWallet

inductive TypeOfSort where
  | marketCap
  | volume
  | popular
  deriving DecidableEq, Repr

def TypeOfSort.name : TypeOfSort → String
  | .marketCap => "Market capitalization"
  | .volume => "Volume"
  | .popular => "Popular"

/-- The raw values, which the requests put after `order=`. -/
def TypeOfSort.rawValue : TypeOfSort → String
  | .marketCap => "market_cap_desc"
  | .volume => "volume_desc"
  | .popular => "gecko_desc"

/-- `TypeOfSort(rawValue:)`, which the enumeration defines on its names. -/
def TypeOfSort.ofRawValue (rawValue : String) : Option TypeOfSort :=
  if rawValue = TypeOfSort.marketCap.name then some .marketCap
  else if rawValue = TypeOfSort.volume.name then some .volume
  else if rawValue = TypeOfSort.popular.name then some .popular
  else none

inductive TypeOfRequest where
  | searchingRequest (searchingText : String) (sortBy : TypeOfSort)
  | allCurrencies (sortBy : TypeOfSort) (numberOfPage : Int)
  | favouriteCoins (IDs : List String)
  deriving DecidableEq, Repr

/-- `AppConstants.CoinListScreenConstants.sortingNames` -/
def sortingNames : List String := ["Market capitalization", "Volume", "Popular"]

/-- `TypeOfSort(rawValue: sortingNames[row]) ?? .marketCap` -/
def sortOfRow (row : Fin sortingNames.length) : TypeOfSort :=
  (TypeOfSort.ofRawValue sortingNames[row]).getD .marketCap

theorem TypeOfSort.ofRawValue_name (s : TypeOfSort) : TypeOfSort.ofRawValue s.name = some s := by
  cases s <;> decide

/-- The picker offers every sort. -/
theorem sortOfRow_surjective (s : TypeOfSort) : ∃ row, sortOfRow row = s := by
  have hrow : ∃ row : Fin sortingNames.length, sortingNames[row] = s.name := by
    cases s with
    | marketCap => exact ⟨⟨0, by decide⟩, rfl⟩
    | volume => exact ⟨⟨1, by decide⟩, rfl⟩
    | popular => exact ⟨⟨2, by decide⟩, rfl⟩
  obtain ⟨row, h⟩ := hrow
  exact ⟨row, by rw [sortOfRow, h, TypeOfSort.ofRawValue_name, Option.getD_some]⟩

end CryptoWallet
