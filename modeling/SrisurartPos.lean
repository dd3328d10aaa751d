import SrisurartPos.Server.StockLedger
import SrisurartPos.Server.Refunds
import SrisurartPos.Server.Undoing
import SrisurartPos.Server.FrozenDrawer
import SrisurartPos.Server.CreditTab
import SrisurartPos.Server.CreditLimit
import SrisurartPos.Server.DocSeries
import SrisurartPos.Server.PushBatch
import SrisurartPos.Server.TenantCache
import SrisurartPos.Server.AtMostOnce
import SrisurartPos.Server.QuoteDesk
import SrisurartPos.Auth.ChainSafety
import SrisurartPos.Auth.LoginLimiter
import SrisurartPos.Import.JobLifecycle
import SrisurartPos.Till.ProductPull
import SrisurartPos.Till.SalesAgree
import SrisurartPos.Till.DrawersAgree
import SrisurartPos.Till.FreshNumbers
import SrisurartPos.Server.NoteTotals
import SrisurartPos.Import.Restore
import SrisurartPos.Till.PushLoop
import SrisurartPos.Till.StockKept
import SrisurartPos.Drift.Balance
import SrisurartPos.Till.SessionIsolation
import SrisurartPos.Till.ShopIsolation
import SrisurartPos.Till.OneDocument
import SrisurartPos.Till.CloseBarrier
import SrisurartPos.Import.Counters
import SrisurartPos.Till.CreditStatement
import SrisurartPos.Till.NetFigures
import SrisurartPos.Till.SalesTax
import SrisurartPos.Server.SalesReports
import SrisurartPos.Server.SaleStock
import SrisurartPos.Server.Purchasing
import SrisurartPos.Server.ShiftOpening
import SrisurartPos.Server.CashOut
import SrisurartPos.Server.Ids
import SrisurartPos.Till.QrChecksum
import SrisurartPos.Till.Checkout
import SrisurartPos.Till.OfflinePin
import SrisurartPos.Server.ImageFiles
import SrisurartPos.Till.SupplierPull
import SrisurartPos.Till.Stocktake
import SrisurartPos.Till.BackupLossless
import SrisurartPos.Import.References
import SrisurartPos.Till.PushCalls
