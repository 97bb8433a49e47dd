import CryptoWallet.Library.Runs
import CryptoWallet.Library.ReadModifyWrite
import CryptoWallet.Library.Decimal
import CryptoWallet.Library.Rounding
import CryptoWallet.Library.Calls
import CryptoWallet.Library.Keyed
import CryptoWallet.Library.Tables
import CryptoWallet.Library.Records
import CryptoWallet.Library.Tenants
import CryptoWallet.Library.Weighted
import CryptoWallet.Library.Threads
import CryptoWallet.Library.Patterns
import CryptoWallet.Library.URI
import CryptoWallet.Library.JSON
import CryptoWallet.Library.Decoders
import CryptoWallet.Swift.Double
import CryptoWallet.Swift.Text
import CryptoWallet.Firebase.FirebaseManager
import CryptoWallet.Firebase.Concurrency
import CryptoWallet.Firebase.Ledger
import CryptoWallet.Firebase.Deletion
import CryptoWallet.Firebase.Users
import CryptoWallet.Firebase.Holdings
import CryptoWallet.CoinModelParser
import CryptoWallet.Parser.PriceText
import CryptoWallet.Parser.ParsedCoins
import CryptoWallet.CoinAdd.CoinAddViewPresenter
import CryptoWallet.Wallet.WalletViewPresenter
import CryptoWallet.Wallet.Swipe
import CryptoWallet.Wallet.Valuation
import CryptoWallet.Wallet.Settling
import CryptoWallet.Wallet.Rows
import CryptoWallet.Wallet.Gain
import CryptoWallet.Wallet.LedgerShown
import CryptoWallet.APICaller
import CryptoWallet.Requests.URLString
import CryptoWallet.Requests.DoRequest
import CryptoWallet.Requests.SearchQuery
import CryptoWallet.Requests.IDsQuery
import CryptoWallet.CoinList.CoinsListViewPresenter
import CryptoWallet.CoinList.Modes
import CryptoWallet.CoinList.Paging
import CryptoWallet.CoinList.Session
import CryptoWallet.CoinList.PageRequests
import CryptoWallet.CoinList.SavedList
import CryptoWallet.CoinList.HeldRows
import CryptoWallet.TableRows
import CryptoWallet.CoinAdd.CoinAddViewController
import CryptoWallet.CoinAdd.PurchaseFlow
import CryptoWallet.Detail.ChartView
import CryptoWallet.Detail.AxisLabels
import CryptoWallet.Detail.CoinResponse
import CryptoWallet.Detail.DetailCoinViewController
import CryptoWallet.Requests.PageResponse
import CryptoWallet.Requests.PageQuery
import CryptoWallet.Requests.Conversation
import CryptoWallet.CoinList.ServedRows
import CryptoWallet.Wallet.WalletServed
import CryptoWallet.PieChart.PieChartViewPresenter
import CryptoWallet.Authorization.Validation
import CryptoWallet.Authorization.SignInViewController
import CryptoWallet.Keychain.Security
import CryptoWallet.Keychain.KeychainWrapper
import CryptoWallet.Keychain.Dictionary
import CryptoWallet.Keychain.Sharing
import CryptoWallet.Authorization.StoredCredentials
import CryptoWallet.Authorization.SignUpViewController
import CryptoWallet.Authorization.SubmitButtons
import CryptoWallet.Authorization.MainScreen
