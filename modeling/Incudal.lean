import Incudal.TrafficResets
import Incudal.Lib.Fifo
import Incudal.Lib.Rounding
import Incudal.BillingCalc
import Incudal.Charges
import Incudal.Deletion
import Incudal.DeletionRetries
import Incudal.HostedShare
import Incudal.PriceAdjustment
import Incudal.QuoteAfterRefund
import Incudal.AgentAuth
import Incudal.AgentReplay
import Incudal.BodyAgreement
import Incudal.ExpiryDeletion
import Incudal.HostAccounts
import Incudal.HostCounters
import Incudal.HostExclusion
import Incudal.ProvisionRuns
import Incudal.TransferRuns
import Incudal.CallbackRuns
import Incudal.DistributedLock
import Incudal.CouponMonths
import Incudal.HostedRecovery
import Incudal.Points
import Incudal.PlanChange
import Incudal.HourlyBilling
import Incudal.HourlySettlements
import Incudal.PlanRebasing
import Incudal.AgentReport
import Incudal.RenewalValue
import Incudal.ReportFrames
import Incudal.IpAddresses
import Incudal.Lib.Exclusive
import Incudal.OperationVerification
import Incudal.RedeemCodes
import Incudal.SharedPackages
import Incudal.VipBenefits
import Incudal.AffLedger
import Incudal.HourlyLedger
import Incudal.BalanceRuns
import Incudal.BalanceTransfers
import Incudal.Lib.Segments
import Incudal.Lib.Snapshot
import Incudal.Lottery
import Incudal.LotteryDraws
import Incudal.PlanPrices
import Incudal.Lib.Ranked
import Incudal.Lib.SqlCase
import Incudal.VipLevels
import Incudal.VipProgress
import Incudal.TrafficCharges
import Incudal.IpCalculator
import Incudal.HostingRuns
import Incudal.Lib.StableSort
import Incudal.InstanceAudit
import Incudal.SharedState
import Incudal.InstallTokens
import Incudal.HealthMonitor
import Incudal.ResourcePool
import Incudal.PortMappings
import Incudal.AgentUpgrade
import Incudal.NetworkPolicies
import Incudal.InterfaceCounters
import Incudal.BatchPricing
import Incudal.Lib.InsertionMap
import Incudal.Lib.Delimited
import Incudal.HostConflicts
import Incudal.Friendships
import Incudal.EmailCodes
import Incudal.Lib.Base64Url
import Incudal.OAuthTokens
import Incudal.EpaySignature
import Incudal.Lib.IpText
import Incudal.PublicAddresses
import Incudal.SessionInvalidation
import Incudal.PlanChangeRollback
import Incudal.RedeemDelivery
import Incudal.DiscountMonths
import Incudal.Lib.GreedyMatching
import Incudal.CouponMatching
import Incudal.Lib.Hex
import Incudal.SensitiveData
import Incudal.Lib.TextLines
import Incudal.PpsConfig
import Incudal.LoginAttempts
import Incudal.RechargeCards
import Incudal.Lib.UrlReference
import Incudal.RedirectUrls
import Incudal.Lib.Replace
import Incudal.LogSanitizer
import Incudal.Lib.Precedes
import Incudal.ActionTickets
import Incudal.Lib.Tally
import Incudal.TerminalSlots
import Incudal.HostEmails
import Incudal.AgentHeartbeat
