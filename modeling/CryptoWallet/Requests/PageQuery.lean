/-
  File:      CryptoWallet/Requests/PageQuery.lean
  Subject:   The sort and the number of a page in its URL.

  * `toString_isUnreserved`: the text of a number may stand in a query.
  * `page_parameters`: the URL of a page is one, with its parameters in the order written.
  * `page_read_back`: **the sort and the number are read back from the URL**; two URLs of pages
    are equal only when both are.
-/
import Mathlib
import CryptoWallet.Requests.IDsQuery

namespace CryptoWallet

open URIs

/-! ## 1. Numbers in a query -/

theorem repr_isUnreserved (n : Nat) : ∀ c ∈ n.repr.toList, isUnreserved c = true := by
  intro c hc
  rw [Nat.toList_repr] at hc
  have hdigit : c.isDigit = true := Nat.isDigit_of_mem_toDigits (by decide) (by decide) hc
  simp [isUnreserved, Char.isAlphanum, hdigit]

/-- The digits of a number, and the sign of a negative one. -/
theorem toString_isUnreserved (n : Int) : ∀ c ∈ (toString n).toList, isUnreserved c = true := by
  rw [Int.toString_eq_repr]
  cases n with
  | ofNat n => exact repr_isUnreserved n
  | negSucc n =>
      intro c hc
      rw [Int.repr, String.toList_append] at hc
      rcases List.mem_append.mp hc with hsign | hdigits
      · obtain rfl : c = '-' := List.mem_singleton.mp hsign
        decide
      · exact repr_isUnreserved _ c hdigits

/-- A number is read back from its text. -/
theorem toInt?_toString (n : Int) : (toString n).toInt? = some n := by
  rw [Int.toString_eq_repr, Int.toInt?_repr]

/-- The order is read back from its raw value. -/
theorem rawValue_injective {s s' : TypeOfSort} (h : s.rawValue = s'.rawValue) : s = s' := by
  cases s <;> cases s' <;> first | rfl | exact absurd h (by decide)

/-! ## 2. The parameters of a page -/

/-- The parameters of a request for a page. -/
def pageParameters (order page : String) : List (List Char × Option (List Char)) :=
  [("vs_currency".toList, some "usd".toList), ("order".toList, some order.toList),
    ("per_page".toList, some "20".toList), ("page".toList, some page.toList),
    ("sparkline".toList, some "true".toList)]

/-- The parameters before the number. -/
def beforePage (sortBy : TypeOfSort) : String :=
  "vs_currency=usd&order=" ++ sortBy.rawValue ++ "&per_page=20"

/-- A query with the number between the other parameters. -/
def pageQuery (sortBy : TypeOfSort) (page : String) : List Char :=
  (beforePage sortBy).toList ++ '&' :: ("page".toList ++ '=' :: (page.toList ++
    '&' :: "sparkline=true".toList))

section

variable (sortBy : TypeOfSort) (numberOfPage : Int)

/-- A character that may not stand in a query is not in a number. -/
theorem notMem_toString {c : Char} (h : isUnreserved c = false) :
    c ∉ (toString numberOfPage).toList :=
  Patterns.notMem_of_class (toString_isUnreserved numberOfPage) h

theorem pageURLString_toList : (Foundation.pageURLString sortBy numberOfPage).toList =
    "https://api.coingecko.com/api/v3/coins/markets".toList ++
      '?' :: pageQuery sortBy (toString numberOfPage) := by
  have hstart : "https://api.coingecko.com/api/v3/coins/markets?vs_currency=usd&order=".toList =
      "https://api.coingecko.com/api/v3/coins/markets".toList ++
        '?' :: "vs_currency=usd&order=".toList := by
    decide
  unfold Foundation.pageURLString pageQuery beforePage
  simp only [String.toList_append, hstart, List.append_assoc, List.cons_append]
  rfl

/-- The characters of a page's query may stand in one. -/
theorem encoded_pageQuery :
    encoded isQueryCharacter (pageQuery sortBy (toString numberOfPage)) = true := by
  have hall : (toString numberOfPage).toList.all isQueryCharacter = true := by
    refine List.all_eq_true.mpr fun c hc => ?_
    simp [isQueryCharacter, isPathCharacter, toString_isUnreserved numberOfPage c hc]
  have hdigits : '%' ∉ (toString numberOfPage).toList := notMem_toString _ (by decide)
  unfold pageQuery
  rw [encoded_append (u := (beforePage sortBy).toList) (by cases sortBy <;> decide +kernel),
    encoded_cons (by decide), encoded_append (u := "page".toList) (by decide),
    encoded_cons (by decide), encoded_append hdigits, encoded_cons (by decide), hall]
  cases sortBy <;> decide +kernel

/-- The parameters of a page's query. -/
theorem parameters_pageQuery : parameters (pageQuery sortBy (toString numberOfPage)) =
    pageParameters sortBy.rawValue (toString numberOfPage) := by
  have hassoc : pageQuery sortBy (toString numberOfPage) = "vs_currency=usd".toList ++
      '&' :: (("order".toList ++ '=' :: sortBy.rawValue.toList) ++ '&' ::
        ("per_page=20".toList ++ '&' ::
          (("page".toList ++ '=' :: (toString numberOfPage).toList) ++
            '&' :: "sparkline=true".toList))) := by
    unfold pageQuery beforePage
    simp only [String.toList_append, List.append_assoc, List.cons_append]
    rfl
  have horder : '&' ∉ "order".toList ++ '=' :: sortBy.rawValue.toList := by
    cases sortBy <;> decide +kernel
  have hpage : '&' ∉ "page".toList ++ '=' :: (toString numberOfPage).toList :=
    notMem_append_cons (by decide) (by decide) (notMem_toString _ (by decide))
  rw [hassoc, parameters_cons (by decide), parameters_cons horder, parameters_cons (by decide),
    parameters_cons hpage, cut_append_cons (by decide), cut_append_cons (by decide)]
  rfl

/-- **The URL of a page is a URL of the markets**, with the order and the number among its
    parameters as they were given. -/
theorem page_parameters :
    ∃ query, parse (Foundation.pageURLString sortBy numberOfPage).toList =
        some { marketsEndpoint with query := some query } ∧
      parameters query = pageParameters sortBy.rawValue (toString numberOfPage) := by
  have hnone : '#' ∉ pageQuery sortBy (toString numberOfPage) :=
    notMem_append_cons (by cases sortBy <;> decide +kernel) (by decide) <|
      notMem_append_cons (by decide) (by decide) <|
        notMem_append_cons (notMem_toString _ (by decide)) (by decide) (by decide)
  refine ⟨pageQuery sortBy (toString numberOfPage), ?_, parameters_pageQuery _ _⟩
  rw [pageURLString_toList, parse_append_query (u := marketsEndpoint) (by decide) (by decide)
    (by decide), cut_of_notMem hnone, if_pos ⟨encoded_pageQuery _ _, rfl⟩]
  rfl

end

/-- **The sort and the number of a page are read back from its URL**, and it is the URL of no
    other page. -/
theorem page_read_back (sortBy : TypeOfSort) (numberOfPage : Int) :
    (∃ query page, parse (Foundation.pageURLString sortBy numberOfPage).toList =
        some { marketsEndpoint with query := some query } ∧
      parameters query = pageParameters sortBy.rawValue page ∧
      page.toInt? = some numberOfPage) ∧
    ∀ sortBy' numberOfPage',
      Foundation.pageURLString sortBy numberOfPage =
        Foundation.pageURLString sortBy' numberOfPage' →
        sortBy = sortBy' ∧ numberOfPage = numberOfPage' := by
  obtain ⟨query, hparse, hparameters⟩ := page_parameters sortBy numberOfPage
  refine ⟨⟨query, _, hparse, hparameters, toInt?_toString numberOfPage⟩, ?_⟩
  intro sortBy' numberOfPage' h
  obtain ⟨query', hparse', hparameters'⟩ := page_parameters sortBy' numberOfPage'
  rw [← h, hparse] at hparse'
  have hquery : query = query' := by
    have hsome := congrArg (Option.bind · URI.query) hparse'
    exact Option.some.inj hsome
  subst hquery
  rw [hparameters] at hparameters'
  simp only [pageParameters, List.cons.injEq, Prod.mk.injEq, Option.some.injEq, true_and,
    String.toList_inj, and_true] at hparameters'
  refine ⟨rawValue_injective hparameters'.1, ?_⟩
  have hsome : some numberOfPage = some numberOfPage' := by
    calc some numberOfPage
        = (toString numberOfPage).toInt? := (toInt?_toString _).symm
      _ = (toString numberOfPage').toInt? := by rw [hparameters'.2]
      _ = some numberOfPage' := toInt?_toString _
  exact Option.some.inj hsome

end CryptoWallet
