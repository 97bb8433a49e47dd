/-
  File:      CryptoWallet/Detail/ChartView.lean
  Subject:   The chart of a coin's prices (ChartView.swift, Date.swift).

  Doubles are exact rationals; a division by zero is undefined, and with it the path. Instants are
  seconds after a reference date. What `DateFormatter` reads and what the time is come from
  outside.

  * `ChartView`, `ChartView.ofCoin`: what the chart computes when it is made.
  * `ChartView.chartView`: its path in a frame, as a list of moves and lines.
  * `chartView_eq`: the path goes through one point for each price, if the prices differ.
  * `chart_in_shape_iff`: **the path is defined, in its frame and in shape** exactly then.
-/
import CryptoWallet.CoinModelParser

namespace CryptoWallet

/-! ## 1. The chart -/

inductive LineColor where
  | green
  | red
  deriving DecidableEq, Repr

/-- `DateFormatter` with the format `yyyy-MM-dd'T'HH:mm:ss.SSSZ`, and the time. -/
structure Dates where
  /-- `date(from:)` -/
  date : String → Option ℚ
  /-- `Date()` -/
  now : ℚ

/-- `Date(coinGeckoString:)` -/
def Dates.ofCoinGecko (E : Dates) (coinGeckoString : String) : ℚ :=
  (E.date coinGeckoString).getD E.now

structure ChartView where
  data : List ℚ
  maxY : ℚ
  minY : ℚ
  lineColor : LineColor
  startingDate : ℚ
  endingDate : ℚ
  deriving DecidableEq, Repr

variable {Image : Type}

/-- `init(coin:)` -/
def ChartView.ofCoin (E : Dates) (coin : CoinTableViewCellViewModel ℚ Image) : ChartView :=
  let data := (coin.sparklineIn7D.bind (·.price)).getD []
  let priceChange := data.getLast?.getD 0 - data.head?.getD 0
  let endingDate := E.ofCoinGecko (coin.lastUpdated.getD "")
  { data := data
    maxY := data.max?.getD 0
    minY := data.min?.getD 0
    lineColor := if priceChange > 0 then .green else .red
    startingDate := endingDate + -7 * 24 * 60 * 60
    endingDate := endingDate }

structure CGPoint where
  x : ℚ
  y : ℚ
  deriving DecidableEq, Repr

inductive PathElement where
  | move (point : CGPoint)
  | addLine (point : CGPoint)
  deriving DecidableEq, Repr

/-- `a / b`, undefined where `b` is zero. -/
def divide (a b : ℚ) : Option ℚ := if b = 0 then none else some (a / b)

/-- What the loop adds to the path for the price at `index`. -/
def ChartView.addPrice (v : ChartView) (width height : ℚ) (path : List PathElement)
    (price : ℚ × Nat) : Option (List PathElement) := do
  let index := price.2
  let xPosition := (← divide width v.data.length) * (index + 1)
  let yAxis := v.maxY - v.minY
  let yPosition := (1 - (← divide (price.1 - v.minY) yAxis)) * height
  let path := if index = 0 then path ++ [.move ⟨xPosition, yPosition⟩] else path
  return path ++ [.addLine ⟨xPosition, yPosition⟩]

/-- `chartView` in a frame. -/
def ChartView.chartView (v : ChartView) (width height : ℚ) : Option (List PathElement) :=
  v.data.zipIdx.foldlM (v.addPrice width height) []

/-- A path through points. -/
def pathThrough : List CGPoint → List PathElement
  | [] => []
  | p :: ps => .move p :: .addLine p :: ps.map .addLine

/-! ## 2. Maximum and minimum -/

/-- All prices are the same. -/
def Constant (prices : List ℚ) : Prop := ∀ a ∈ prices, ∀ b ∈ prices, a = b

theorem max?_spec {prices : List ℚ} (h : prices ≠ []) :
    prices.max?.getD 0 ∈ prices ∧ ∀ b ∈ prices, b ≤ prices.max?.getD 0 := by
  obtain ⟨m, hm⟩ := Option.ne_none_iff_exists'.mp (mt List.max?_eq_none_iff.mp h)
  rw [hm, Option.getD_some]
  exact List.max?_eq_some_iff.mp hm

theorem min?_spec {prices : List ℚ} (h : prices ≠ []) :
    prices.min?.getD 0 ∈ prices ∧ ∀ b ∈ prices, prices.min?.getD 0 ≤ b := by
  obtain ⟨m, hm⟩ := Option.ne_none_iff_exists'.mp (mt List.min?_eq_none_iff.mp h)
  rw [hm, Option.getD_some]
  exact List.min?_eq_some_iff.mp hm

namespace ChartView

variable {E : Dates} {coin : CoinTableViewCellViewModel ℚ Image} {v : ChartView} {width height : ℚ}

/-- What `init` makes of the prices. -/
structure OfPrices (v : ChartView) : Prop where
  maxY : v.maxY = v.data.max?.getD 0
  minY : v.minY = v.data.min?.getD 0

theorem ofCoin_ofPrices : (ofCoin E coin).OfPrices := ⟨rfl, rfl⟩

theorem OfPrices.le_maxY (h : v.OfPrices) {d : ℚ} (hd : d ∈ v.data) : d ≤ v.maxY := by
  rw [h.maxY]
  exact (max?_spec (List.ne_nil_of_mem hd)).2 d hd

theorem OfPrices.minY_le (h : v.OfPrices) {d : ℚ} (hd : d ∈ v.data) : v.minY ≤ d := by
  rw [h.minY]
  exact (min?_spec (List.ne_nil_of_mem hd)).2 d hd

/-- **The range of the prices is zero** exactly if they are all the same. -/
theorem OfPrices.range_eq_zero_iff (h : v.OfPrices) (hne : v.data ≠ []) :
    v.maxY - v.minY = 0 ↔ Constant v.data := by
  constructor
  · intro hzero a ha b hb
    linarith [h.le_maxY ha, h.minY_le ha, h.le_maxY hb, h.minY_le hb]
  · intro hconst
    have hmax := (max?_spec hne).1
    have hmin := (min?_spec hne).1
    rw [← h.maxY] at hmax
    rw [← h.minY] at hmin
    rw [hconst _ hmax _ hmin, sub_self]

/-! ## 3. The path -/

/-- Where the price at an index is drawn. -/
def pointAt (v : ChartView) (width height : ℚ) (price : ℚ × Nat) : CGPoint :=
  ⟨width / v.data.length * (price.2 + 1),
    (1 - (price.1 - v.minY) / (v.maxY - v.minY)) * height⟩

/-- The points of the path, one for each price. -/
def points (v : ChartView) (width height : ℚ) : List CGPoint :=
  v.data.zipIdx.map (v.pointAt width height)

theorem addPrice_eq (hlength : (v.data.length : ℚ) ≠ 0) (hrange : v.maxY - v.minY ≠ 0)
    (path : List PathElement) (price : ℚ × Nat) :
    v.addPrice width height path price =
      some ((if price.2 = 0 then path ++ [.move (v.pointAt width height price)] else path) ++
        [.addLine (v.pointAt width height price)]) := by
  simp [addPrice, divide, hlength, hrange, pointAt]

/-- **The path goes through the points**, if the prices differ. -/
theorem chartView_eq (h : v.OfPrices) (hne : v.data ≠ []) (hconst : ¬Constant v.data) :
    v.chartView width height = some (pathThrough (v.points width height)) := by
  have hlength : (v.data.length : ℚ) ≠ 0 := by
    exact_mod_cast (List.length_pos_of_ne_nil hne).ne'
  have hrange : v.maxY - v.minY ≠ 0 := mt (h.range_eq_zero_iff hne).mp hconst
  -- after the first price the loop only adds lines
  have hlines : ∀ (prices : List (ℚ × Nat)) (path : List PathElement),
      (∀ price ∈ prices, price.2 ≠ 0) →
      prices.foldlM (v.addPrice width height) path =
        some (path ++ prices.map fun price => .addLine (v.pointAt width height price)) := by
    intro prices
    induction prices with
    | nil =>
        intro path _
        simp
    | cons price prices ih =>
        intro path hindex
        rw [List.foldlM_cons, addPrice_eq hlength hrange, if_neg (hindex _ List.mem_cons_self)]
        show List.foldlM _ _ prices = _
        rw [ih _ fun p hp => hindex p (List.mem_cons_of_mem _ hp)]
        simp
  unfold chartView points
  cases hdata : v.data with
  | nil => exact absurd hdata hne
  | cons d ds =>
      rw [List.zipIdx_cons, List.foldlM_cons, addPrice_eq hlength hrange, if_pos rfl]
      show List.foldlM _ _ _ = _
      rw [hlines]
      · simp [pathThrough, List.map_map, Function.comp_def]
      · intro price hprice
        have := List.le_snd_of_mem_zipIdx hprice
        omega

/-- A path over prices that are all the same is undefined. -/
theorem chartView_constant (h : v.OfPrices) (hne : v.data ≠ []) (hconst : Constant v.data) :
    v.chartView width height = none := by
  have hrange : v.maxY - v.minY = 0 := (h.range_eq_zero_iff hne).mpr hconst
  unfold chartView
  cases hdata : v.data with
  | nil => exact absurd hdata hne
  | cons d ds =>
      rw [List.zipIdx_cons, List.foldlM_cons]
      have hnone : v.addPrice width height [] (d, 0) = none := by
        simp [addPrice, divide, hrange]
      rw [hnone]
      rfl

end ChartView

/-! ## 4. In its frame and in shape -/

/-- The points of the prices are in the frame and in shape. -/
structure InShape (prices : List ℚ) (width height : ℚ) (ps : List CGPoint) : Prop where
  length : ps.length = prices.length
  rightward : ps.Pairwise fun p q => p.x < q.x
  inside : ∀ p ∈ ps, (0 < p.x ∧ p.x ≤ width) ∧ 0 ≤ p.y ∧ p.y ≤ height
  highest : ∀ d p, (d, p) ∈ prices.zip ps → (∀ e ∈ prices, e ≤ d) → p.y = 0
  lowest : ¬Constant prices → ∀ d p, (d, p) ∈ prices.zip ps → (∀ e ∈ prices, d ≤ e) → p.y = height
  higher : ∀ d p e q, (d, p) ∈ prices.zip ps → (e, q) ∈ prices.zip ps → d < e → q.y < p.y

/-- The path is defined, and goes through points in the frame and in shape. -/
def ChartView.Plotted (v : ChartView) (width height : ℚ) : Prop :=
  ∃ ps, v.chartView width height = some (pathThrough ps) ∧ InShape v.data width height ps

namespace ChartView

variable {v : ChartView} {width height : ℚ}

theorem mem_points {p : CGPoint} (h : p ∈ v.points width height) :
    ∃ d i, d ∈ v.data ∧ i < v.data.length ∧ p = v.pointAt width height (d, i) := by
  obtain ⟨⟨d, i⟩, hmem, rfl⟩ := List.mem_map.mp h
  have hget := List.mem_zipIdx_iff_getElem?.mp hmem
  obtain ⟨hi, -⟩ := List.getElem?_eq_some_iff.mp hget
  exact ⟨d, i, List.mem_of_getElem? hget, hi, rfl⟩

/-- The point of a price is where that price is drawn. -/
theorem mem_zip_points {d : ℚ} {p : CGPoint} (h : (d, p) ∈ v.data.zip (v.points width height)) :
    ∃ i, d ∈ v.data ∧ p = v.pointAt width height (d, i) := by
  obtain ⟨i, hi⟩ := List.mem_iff_getElem?.mp h
  obtain ⟨hd, hp⟩ := List.getElem?_zip_eq_some.mp hi
  refine ⟨i, List.mem_of_getElem? hd, ?_⟩
  rw [points, List.getElem?_map, List.getElem?_zipIdx, hd] at hp
  simpa using hp.symm

/-- The points go to the right by equal steps, to the right edge. -/
theorem points_rightward (hwidth : 0 < width) (hne : v.data ≠ []) :
    (v.points width height).Pairwise fun p q => p.x < q.x := by
  have hlength : (0 : ℚ) < v.data.length := by exact_mod_cast List.length_pos_of_ne_nil hne
  rw [List.pairwise_iff_getElem]
  intro i j hi hj hij
  have hcast : (i : ℚ) < j := by exact_mod_cast hij
  simp only [points, List.getElem_map, List.getElem_zipIdx, pointAt, Nat.zero_add]
  gcongr

theorem pointAt_x {d : ℚ} {i : Nat} (hwidth : 0 < width) (hi : i < v.data.length) :
    0 < (v.pointAt width height (d, i)).x ∧ (v.pointAt width height (d, i)).x ≤ width := by
  have hlength : (0 : ℚ) < v.data.length := by exact_mod_cast Nat.lt_of_le_of_lt (Nat.zero_le i) hi
  have hcast : (i + 1 : ℚ) ≤ v.data.length := by exact_mod_cast hi
  refine ⟨by simp only [pointAt]; positivity, ?_⟩
  calc width / v.data.length * (i + 1)
      ≤ width / v.data.length * v.data.length := by gcongr
    _ = width := div_mul_cancel₀ width hlength.ne'

/-- **Prices that differ are in shape.** -/
theorem inShape (h : v.OfPrices) (hne : v.data ≠ []) (hconst : ¬Constant v.data)
    (hwidth : 0 < width) (hheight : 0 < height) :
    InShape v.data width height (v.points width height) := by
  have hmax := max?_spec hne
  have hmin := min?_spec hne
  rw [← h.maxY] at hmax
  rw [← h.minY] at hmin
  have hrange : 0 < v.maxY - v.minY := by
    refine lt_of_le_of_ne (sub_nonneg.mpr (hmin.2 _ hmax.1)) (Ne.symm ?_)
    exact mt (h.range_eq_zero_iff hne).mp hconst
  constructor
  case length => simp [points]
  case rightward => exact points_rightward hwidth hne
  case inside =>
    intro p hp
    obtain ⟨d, i, hd, hi, rfl⟩ := mem_points hp
    have hlow : 0 ≤ (d - v.minY) / (v.maxY - v.minY) :=
      div_nonneg (sub_nonneg.mpr (h.minY_le hd)) hrange.le
    have hhigh : (d - v.minY) / (v.maxY - v.minY) ≤ 1 :=
      (div_le_one hrange).mpr (sub_le_sub_right (h.le_maxY hd) _)
    refine ⟨pointAt_x hwidth hi, mul_nonneg (by linarith) hheight.le, ?_⟩
    exact mul_le_of_le_one_left hheight.le (by linarith)
  case highest =>
    intro d p hp htop
    obtain ⟨i, hd, rfl⟩ := mem_zip_points hp
    have heq : d = v.maxY := le_antisymm (h.le_maxY hd) (htop _ hmax.1)
    simp [pointAt, heq, div_self hrange.ne']
  case lowest =>
    intro _ d p hp hbottom
    obtain ⟨i, hd, rfl⟩ := mem_zip_points hp
    have heq : d = v.minY := le_antisymm (hbottom _ hmin.1) (h.minY_le hd)
    simp [pointAt, heq]
  case higher =>
    intro d p e q hp hq hlt
    obtain ⟨i, -, rfl⟩ := mem_zip_points hp
    obtain ⟨j, -, rfl⟩ := mem_zip_points hq
    simp only [pointAt]
    gcongr

end ChartView

/-- **The path is defined, in its frame and in shape** exactly if the prices are not all the
    same, in every frame and for every coin. -/
theorem chart_in_shape_iff (E : Dates) (coin : CoinTableViewCellViewModel ℚ Image)
    (width height : ℚ) (hne : (ChartView.ofCoin E coin).data ≠ []) (hwidth : 0 < width)
    (hheight : 0 < height) :
    (ChartView.ofCoin E coin).Plotted width height ↔ ¬Constant (ChartView.ofCoin E coin).data := by
  constructor
  · intro hplotted hconst
    obtain ⟨ps, hpath, -⟩ := hplotted
    rw [ChartView.chartView_constant ChartView.ofCoin_ofPrices hne hconst] at hpath
    cases hpath
  · intro hconst
    exact ⟨_, ChartView.chartView_eq ChartView.ofCoin_ofPrices hne hconst,
      ChartView.inShape ChartView.ofCoin_ofPrices hne hconst hwidth hheight⟩

/-- A coin with a sparkline. -/
def coinWithPrices (prices : List ℚ) : CoinTableViewCellViewModel ℚ Unit :=
  ⟨"bitcoin", "Bitcoin", "btc", "1", (), 0, 0, 0, 0, none, some ⟨some prices⟩, 0, 0⟩

/-- No text is a date. -/
def noDates : Dates := ⟨fun _ => none, 0⟩

/-- Three prices in a frame. -/
theorem chart_in_shape_three :
    (ChartView.ofCoin noDates (coinWithPrices [1, 3, 2])).Plotted 300 200 := by
  refine (chart_in_shape_iff noDates (coinWithPrices [1, 3, 2]) 300 200 (List.cons_ne_nil _ _)
    (by norm_num) (by norm_num)).mpr fun h => ?_
  exact absurd (h 1 (by decide) 3 (by decide)) (by decide)

/-- **A price alone, or prices that are all the same, give no path.** -/
theorem chart_undefined :
    (ChartView.ofCoin noDates (coinWithPrices [42])).chartView 300 200 = none ∧
      ¬(ChartView.ofCoin noDates (coinWithPrices [42])).Plotted 300 200 ∧
      ¬(ChartView.ofCoin noDates (coinWithPrices [1, 1])).Plotted 300 200 := by
  have hone : (ChartView.ofCoin noDates (coinWithPrices [42])).chartView 300 200 = none := by
    decide +kernel
  have htwo : (ChartView.ofCoin noDates (coinWithPrices [1, 1])).chartView 300 200 = none := by
    decide +kernel
  refine ⟨hone, ?_, ?_⟩
  · intro h
    obtain ⟨ps, hpath, -⟩ := h
    rw [hone] at hpath
    cases hpath
  · intro h
    obtain ⟨ps, hpath, -⟩ := h
    rw [htwo] at hpath
    cases hpath

end CryptoWallet
