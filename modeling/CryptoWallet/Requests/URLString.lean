/-
  File:      CryptoWallet/Requests/URLString.lean
  Subject:   The URLs of the requests, as strings (APICaller.swift).

  `Foundation` is what the requests use of Swift's strings and of `URL(string:)`.

  * `searchURLString`: the first exchange of a search, for the ids of the coins.
  * `joinedIDs`: ids with `%2C` between them, by cutting three characters off the end.
  * `searchMarketsURLString`, `pageURLString`, `favouritesURLString`: the exchange for the coins.
-/
import CryptoWallet.APICaller
import Mathlib.Data.List.DropRight

namespace CryptoWallet

/-- `lowercased()`, the `Character`s of a string (each of one or more code points), and whether
    `URL(string:)` takes a string; it takes no empty one. -/
structure Foundation where
  lowercased : String → String
  characters : String → List String
  isURL : String → Bool
  isURL_empty : isURL "" = false

structure SearchingCoin where
  id : String
  deriving DecidableEq, Repr

structure SearchingModel where
  coins : List SearchingCoin
  deriving DecidableEq, Repr

namespace Foundation

variable (f : Foundation)

/-- The URL of `getIDs`. -/
def searchURLString (searchingText : String) : String :=
  "https://api.coingecko.com/api/v3/search?query=" ++ f.lowercased searchingText

/-- `requestString[..<index]`, or the ids one after another where there are fewer than two. -/
def joinedIDs (IDs : List String) : String :=
  if IDs.length > 1 then
    let requestString := IDs.foldl (fun s id => s ++ (id ++ "%2C")) ""
    String.join ((f.characters requestString).rdrop 3)
  else IDs.foldl (fun s id => s ++ id) ""

/-- `buildURLString` of a search, after the ids are there. -/
def searchMarketsURLString (newModels : SearchingModel) (sortBy : TypeOfSort) : String :=
  "https://api.coingecko.com/api/v3/coins/markets?vs_currency=usd&ids=" ++
    f.joinedIDs (newModels.coins.map (·.id)) ++ "&order=" ++ sortBy.rawValue ++
    "&per_page=100&page=1&sparkline=true"

/-- `buildURLString` of a page of the list. -/
def pageURLString (sortBy : TypeOfSort) (numberOfPage : Int) : String :=
  "https://api.coingecko.com/api/v3/coins/markets?vs_currency=usd&order=" ++ sortBy.rawValue ++
    "&per_page=20&page=" ++ toString numberOfPage ++ "&sparkline=true"

/-- `buildURLString` of the coins of the wallet. -/
def favouritesURLString (IDs : List String) : String :=
  "https://api.coingecko.com/api/v3/coins/markets?vs_currency=usd&ids=" ++ f.joinedIDs IDs ++
    "&order=market_cap_desc&per_page=100&page=1&sparkline=false"

end Foundation

end CryptoWallet
