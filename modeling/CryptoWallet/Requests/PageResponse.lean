/-
  File:      CryptoWallet/Requests/PageResponse.lean
  Subject:   What `JSONDecoder` makes of the answers to the requests (`[CoinModel]` and
             `SearchingModel` in APICaller.swift and CoinModel.swift).

  * `declared`: the properties of `CoinModel`, in the order in which they are decoded.
  * `specified_coinModel`: a coin is decoded to its declared fields, or the first of them that is
    refused is reported.
  * `page_decoded`: a page is decoded as a whole or not at all; when it is, and what is reported
    when it is not.
  * `search_decoded`: a search is decoded to the ids of its coins.
-/
import CryptoWallet.Detail.CoinResponse
import CryptoWallet.Library.Decoders
import CryptoWallet.Requests.URLString

namespace CryptoWallet

open JSONs

/-! ## 1. The declared properties -/

/-- The types of the properties. -/
inductive Kind where
  | string
  | number
  | optionalNumber
  | optionalString
  | optionalSparkline
  deriving DecidableEq

/-- Why a sparkline is refused. -/
def sparklineRefusal : Refusal
  | codingPath, .object fields =>
      presentRefusal (itemsRefusal numberRefusal) codingPath fields "price"
  | codingPath, v => otherKind codingPath v

def sparklineOf : JSON → SparklineIn7D ℚ
  | .object fields => ⟨presentValue (itemsValue numberOf) fields "price"⟩
  | _ => ⟨none⟩

/-- Why a property is refused. -/
def Kind.refusal (codingPath : List String) (o : Fields) (key : String) :
    Kind → Option DecodingError
  | .string => fieldRefusal stringRefusal codingPath o key
  | .number => fieldRefusal numberRefusal codingPath o key
  | .optionalNumber => presentRefusal numberRefusal codingPath o key
  | .optionalString => presentRefusal stringRefusal codingPath o key
  | .optionalSparkline => presentRefusal sparklineRefusal codingPath o key

/-- **The properties of `CoinModel`**, in the order in which they are declared. -/
def declared : List (String × Kind) :=
  [("id", .string), ("symbol", .string), ("name", .string), ("image", .string),
    ("current_price", .number), ("high_24h", .optionalNumber), ("low_24h", .optionalNumber),
    ("price_change_24h", .optionalNumber), ("price_change_percentage_24h", .optionalNumber),
    ("ath", .number), ("atl", .number), ("lastUpdated", .optionalString),
    ("sparkline_in_7d", .optionalSparkline)]

/-- Why a coin is refused: the refusal of the first declared property that has one. -/
def coinRefusal : Refusal
  | codingPath, .object o => declared.findSome? fun p => p.2.refusal codingPath o p.1
  | codingPath, v => otherKind codingPath v

/-- The coin of the declared fields. -/
def coinIn : JSON → CoinModel ℚ
  | .object o =>
      { id := fieldValue stringOf "" o "id"
        symbol := fieldValue stringOf "" o "symbol"
        name := fieldValue stringOf "" o "name"
        image := fieldValue stringOf "" o "image"
        current_price := fieldValue numberOf 0 o "current_price"
        high_24h := presentValue numberOf o "high_24h"
        low_24h := presentValue numberOf o "low_24h"
        price_change_24h := presentValue numberOf o "price_change_24h"
        price_change_percentage_24h := presentValue numberOf o "price_change_percentage_24h"
        ath := fieldValue numberOf 0 o "ath"
        atl := fieldValue numberOf 0 o "atl"
        lastUpdated := presentValue stringOf o "lastUpdated"
        sparkline_in_7d := presentValue sparklineOf o "sparkline_in_7d" }
  | _ => ⟨"", "", "", "", 0, none, none, none, none, 0, 0, none, none⟩

/-! ## 2. One coin -/

theorem specified_sparkline : Specified decodeSparklineIn7D sparklineRefusal sparklineOf := by
  intro codingPath v
  cases v with
  | object fields =>
      have h : Specified numbers (itemsRefusal numberRefusal) (itemsValue numberOf) :=
        numbers_eq_items ▸ specified_number.items
      rw [decodeSparklineIn7D, h.fieldIfPresent]
      exact verdict_pure SparklineIn7D.mk
  | _ => rfl

/-- **A coin is its declared fields, or its first refused property is reported.** -/
theorem specified_coinModel : Specified decodeCoinModel coinRefusal coinIn := by
  intro codingPath v
  cases v with
  | object o =>
      have hs := specified_string.field "" codingPath o
      have hn := specified_number.field 0 codingPath o
      have hn? := specified_number.fieldIfPresent codingPath o
      have hs? := specified_string.fieldIfPresent codingPath o
      have hp? := specified_sparkline.fieldIfPresent codingPath o
      simp only [decodeCoinModel, coinRefusal, declared, findSome?_cons_or, List.findSome?_nil,
        Option.or_none, Kind.refusal, hs, hn, hn?, hs?, hp?]
      refine verdict_bind (verdict_bind (verdict_bind (verdict_bind (verdict_bind (verdict_bind
        (verdict_bind (verdict_bind (verdict_bind (verdict_bind (verdict_bind (verdict_bind
          ?_)))))))))))
      exact verdict_pure _
  | _ => rfl

/-! ## 3. The coins that are accepted -/

/-- The property is of its type. -/
def Kind.Accepted (o : Fields) (key : String) : Kind → Prop
  | .string => ∃ v, o.lookup key = some v ∧ IsString v
  | .number => ∃ v, o.lookup key = some v ∧ IsNumber v
  | .optionalNumber => Optionally IsNumber o key
  | .optionalString => Optionally IsString o key
  | .optionalSparkline => Optionally IsSparkline o key

/-- **An object with the declared properties.** -/
def IsCoin (v : JSON) : Prop := ∃ o, v = .object o ∧ ∀ p ∈ declared, p.2.Accepted o p.1

theorem accepts_numbers : Accepts (itemsRefusal numberRefusal) IsNumbers :=
  fun codingPath v => (accepts_number.items codingPath v).trans isNumbers_iff.symm

theorem accepts_sparkline : Accepts sparklineRefusal IsSparkline := by
  intro codingPath v
  cases v with
  | object fields =>
      refine (accepts_numbers.fieldIfPresent codingPath fields "price").trans ?_
      simp [IsSparkline]
  | _ => simp [sparklineRefusal, otherKind, IsSparkline]

theorem kind_accepts (codingPath : List String) (o : Fields) (key : String) (kind : Kind) :
    kind.refusal codingPath o key = none ↔ kind.Accepted o key := by
  cases kind with
  | string => exact accepts_string.field codingPath o key
  | number => exact accepts_number.field codingPath o key
  | optionalNumber => exact accepts_number.fieldIfPresent codingPath o key
  | optionalString => exact accepts_string.fieldIfPresent codingPath o key
  | optionalSparkline => exact accepts_sparkline.fieldIfPresent codingPath o key

theorem accepts_coin : Accepts coinRefusal IsCoin := by
  intro codingPath v
  cases v with
  | object o => simp [coinRefusal, IsCoin, kind_accepts]
  | _ => simp [coinRefusal, otherKind, IsCoin]

/-! ## 4. Pages -/

/-- `JSONDecoder().decode([CoinModel].self, from: data)` -/
def decodeCoinModels (v : JSON) : Except DecodingError (List (CoinModel ℚ)) :=
  items decodeCoinModel [] v

/-- **A page is decoded as a whole or not at all**: it is when it is an array of objects with the
    declared properties, then to the coins of its items, in their order; otherwise the first
    refused property of the first refused item is reported, under the number of that item. -/
theorem page_decoded (v : JSON) :
    ((∃ models, decodeCoinModels v = .ok models) ↔
        ∃ l, v = .array l ∧ ∀ item ∈ l, IsCoin item) ∧
      (∀ models, decodeCoinModels v = .ok models →
        ∃ l, v = .array l ∧ models = l.map coinIn) ∧
      ∀ l e, v = .array l → (decodeCoinModels v = .error e ↔
        ∃ pre item post, l = pre ++ item :: post ∧ (∀ x ∈ pre, IsCoin x) ∧
          coinRefusal ["Index " ++ toString pre.length] item = some e) := by
  have hv : decodeCoinModels v = _ := specified_coinModel.items [] v
  have hnone := accepts_coin.items [] v
  refine ⟨?_, fun models h => ?_, fun l e hl => ?_⟩
  · refine Iff.trans ?_ hnone
    rw [hv]
    simp [verdict_ok_iff]
  · rw [hv, verdict_ok_iff] at h
    obtain ⟨l, rfl, -⟩ := hnone.mp h.1
    exact ⟨l, rfl, h.2.symm⟩
  · subst hl
    rw [hv, verdict_error_iff]
    exact accepts_coin.first_item [] l e

/-! ## 5. Searches -/

def decodeSearchingCoin : Reader SearchingCoin
  | codingPath, .object fields => do
      let id ← field string codingPath fields "id"
      return ⟨id⟩
  | codingPath, .null => .error (.valueNotFound codingPath)
  | codingPath, _ => .error (.typeMismatch codingPath)

/-- `JSONDecoder().decode(SearchingModel.self, from: data)` -/
def decodeSearchingModel : JSON → Except DecodingError SearchingModel
  | .object fields => do
      let coins ← field (items decodeSearchingCoin) [] fields "coins"
      return ⟨coins⟩
  | .null => .error (.valueNotFound [])
  | _ => .error (.typeMismatch [])

def searchingCoinRefusal : Refusal
  | codingPath, .object o => fieldRefusal stringRefusal codingPath o "id"
  | codingPath, v => otherKind codingPath v

def searchingCoinIn : JSON → SearchingCoin
  | .object o => ⟨fieldValue stringOf "" o "id"⟩
  | _ => ⟨""⟩

theorem specified_searchingCoin :
    Specified decodeSearchingCoin searchingCoinRefusal searchingCoinIn := by
  intro codingPath v
  cases v with
  | object o =>
      rw [decodeSearchingCoin, specified_string.field "" codingPath o "id"]
      exact verdict_pure SearchingCoin.mk
  | _ => rfl

/-- An object with an id. -/
def HasID (v : JSON) : Prop := ∃ o s, v = .object o ∧ o.lookup "id" = some (.string s)

theorem accepts_searchingCoin : Accepts searchingCoinRefusal HasID := by
  intro codingPath v
  cases v with
  | object o =>
      refine (accepts_string.field codingPath o "id").trans ?_
      simp [HasID, IsString]
  | _ => simp [searchingCoinRefusal, otherKind, HasID]

/-- **A search is decoded when its `coins` are an array of objects with an id**, then to these ids
    in their order, whatever else the answer carries. -/
theorem search_decoded (v : JSON) (models : SearchingModel) :
    decodeSearchingModel v = .ok models ↔
      ∃ o l, v = .object o ∧ o.lookup "coins" = some (.array l) ∧ (∀ item ∈ l, HasID item) ∧
        models = ⟨l.map searchingCoinIn⟩ := by
  cases v with
  | object o =>
      have hcoins := accepts_searchingCoin.items.field [] o "coins"
      rw [decodeSearchingModel, specified_searchingCoin.items.field [] [] o "coins", verdict_pure,
        verdict_ok_iff, hcoins]
      constructor
      · rintro ⟨⟨_, hv, l, rfl, hl⟩, rfl⟩
        exact ⟨o, l, rfl, hv, hl, by rw [fieldValue, hv]; rfl⟩
      · rintro ⟨o', l, ho, hv, hl, rfl⟩
        cases ho
        exact ⟨⟨_, hv, l, rfl, hl⟩, by rw [fieldValue, hv]; rfl⟩
  | _ => simp [decodeSearchingModel]

end CryptoWallet
