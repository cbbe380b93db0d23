import CarSalePro.Laws.AppleVerdict
import CarSalePro.Laws.CapturedTotal
import CarSalePro.Laws.ChargedOnce
import CarSalePro.Laws.ClaimLeak
import CarSalePro.Laws.DeviceCap
import CarSalePro.Laws.FreeQuota
import CarSalePro.Laws.OfferAnswers
import CarSalePro.Laws.OneEnding
import CarSalePro.Laws.PaidOnce
import CarSalePro.Laws.PaymentLedger
import CarSalePro.Laws.PaymentWindow
import CarSalePro.Laws.RefundOrPayout
import CarSalePro.Laws.SearchStarts
import CarSalePro.Laws.StaleAttempts
import CarSalePro.Laws.StatusPath
import CarSalePro.Laws.WebhookClaims
import CarSalePro.Payments.PayPerView
import CarSalePro.Laws.ReportAccess
import CarSalePro.Interleave.Recall
import CarSalePro.Interleave.Stepwise
import CarSalePro.Kyc.Applications
import CarSalePro.Kyc.Effects
import CarSalePro.Laws.ClosedSearch
import CarSalePro.Laws.DeletedListing
import CarSalePro.Laws.Fares
import CarSalePro.Laws.KycDocuments
import CarSalePro.Laws.KycVerdict
import CarSalePro.Laws.PublicErasure
import CarSalePro.Laws.LinkCodes
import CarSalePro.Interleave.Within
import CarSalePro.Laws.OrderReports
import CarSalePro.Laws.PayoutBounds
import CarSalePro.Laws.QueueHold
import CarSalePro.Laws.QueuePositions
import CarSalePro.Laws.AbandonedPayment
import CarSalePro.Laws.FinalizedSale
import CarSalePro.Payments.Transfers
import CarSalePro.Laws.LiveTransfers
import CarSalePro.Laws.StrandedOrders
import CarSalePro.Orders.Served
import CarSalePro.Laws.RefundLedger
import CarSalePro.Kyc.Mrz
import CarSalePro.Laws.MrzAcceptance
import CarSalePro.Reports.Guards
import CarSalePro.Laws.CompletenessGate
import CarSalePro.Laws.OldRules
import CarSalePro.Orders.Errands
import CarSalePro.Laws.OwnerContact
import CarSalePro.Laws.LiveOffers
import CarSalePro.Laws.NeverReasked
import CarSalePro.Laws.SettledOnce
import CarSalePro.Pricing.Quote
import CarSalePro.Laws.CheapestQuote
import CarSalePro.Interleave.Rounds
import CarSalePro.Laws.SweptRows
import CarSalePro.Laws.MrzMisread
import CarSalePro.Laws.KycPurge
import CarSalePro.Public.ReportData
import CarSalePro.Laws.PiiSpelling
import CarSalePro.Laws.VehicleMerge
import CarSalePro.Search.SearchText
import CarSalePro.Listings.Columns
import CarSalePro.Listings.Manual
import CarSalePro.Laws.ManualListing
import CarSalePro.Laws.PhotoSelection
import CarSalePro.Legal.Markdown
import CarSalePro.Legal.Emphasis
import CarSalePro.Laws.ContractMarkup
import CarSalePro.Legal.StarRuns
import CarSalePro.Laws.ContractEmphasis
import CarSalePro.Laws.ContractStructure
import CarSalePro.Text.CanonicalOrder
import CarSalePro.Search.Spacing
import CarSalePro.Search.SearchForm
import CarSalePro.Laws.SearchNormalForm
import CarSalePro.Search.Digraphs
import CarSalePro.Search.Respelling
import CarSalePro.Laws.UmlautSpelling
import CarSalePro.Accounts.Requests
import CarSalePro.Accounts.Effects
import CarSalePro.Interleave.Heeding
import CarSalePro.Laws.AdminRanks
import CarSalePro.Laws.AccountStanding
import CarSalePro.Laws.LastSuperAdmin
import CarSalePro.Laws.Logins
import CarSalePro.Laws.PasswordChange
