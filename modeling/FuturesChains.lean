import FuturesChains.Backtest
import FuturesChains.Calendar.Civil
import FuturesChains.Calendar.Date
import FuturesChains.Calendar.Instant
import FuturesChains.Calendar.Span
import FuturesChains.Calendar.Timestamp
import FuturesChains.Calendar.Zone
import FuturesChains.Calendar.ZoneRecord
import FuturesChains.Config
import FuturesChains.Engine.Construction
import FuturesChains.Engine.Registry
import FuturesChains.Engine.Resolution
import FuturesChains.Engine.Security
import FuturesChains.Engine.Settings
import FuturesChains.Engine.State
import FuturesChains.Engine.Subscription
import FuturesChains.FrontMonth
import FuturesChains.Halt
import FuturesChains.Instrument.Code
import FuturesChains.Instrument.ContractCode
import FuturesChains.Instrument.ContractFilter
import FuturesChains.Instrument.Symbol
import FuturesChains.Log.Entry
import FuturesChains.Log.Filter
import FuturesChains.Log.ValuePattern.Atom
import FuturesChains.Log.ValuePattern.CharacterClass
import FuturesChains.Log.ValuePattern.Mode
import FuturesChains.Log.ValuePattern.WellFormed
import FuturesChains.Main
import FuturesChains.Market.Hours
import FuturesChains.Market.Metadata
import FuturesChains.Market.Properties
import FuturesChains.Number.Binary64
import FuturesChains.Number.Decimal
import FuturesChains.Number.DecimalReader
import FuturesChains.Number.Integer
import FuturesChains.Number.Numeral
import FuturesChains.Number.Power
import FuturesChains.Selection.Active
import FuturesChains.Selection.Chain
import FuturesChains.Selection.Manager
import FuturesChains.Selection.Model
import FuturesChains.Selection.Refresh
import FuturesChains.Selection.Resolve
import FuturesChains.Session
import FuturesChains.Text.Alphabetic
import FuturesChains.Text.Blank
import FuturesChains.Text.Bytes
import FuturesChains.Text.GraphemeExtend
import FuturesChains.Text.Letters
import FuturesChains.Text.Quoted
import FuturesChains.Text.Split
import FuturesChains.Text.Unprintable
import FuturesChains.Wire.Document
import FuturesChains.Wire.Record
import FuturesChains.Wire.Value
import FuturesChains.Proofs.Selection.ChainResolution
import FuturesChains.Proofs.Selection.ChainIdentity
import FuturesChains.Proofs.Selection.EagerRefresh
import FuturesChains.Proofs.Instrument.SymbolOrder
import FuturesChains.Proofs.Selection.DiffReplay
import FuturesChains.Proofs.Selection.RefreshSchedule
import FuturesChains.Proofs.Selection.ChainSubscription
import FuturesChains.Proofs.Selection.ChainOwner
import FuturesChains.Proofs.Calendar.MonthStart
import FuturesChains.Proofs.Instrument.CandidateOrder
import FuturesChains.Proofs.Instrument.FrontMonth
import FuturesChains.Proofs.Backtest.Roll
import FuturesChains.Proofs.Backtest.Span
import FuturesChains.Proofs.Number.WrittenNumber
import FuturesChains.Proofs.Text.Utf8
import FuturesChains.Proofs.Engine.ExchangeBuckets
import FuturesChains.Proofs.Engine.RegistryJournal
import FuturesChains.Proofs.Instrument.ContractCode
import FuturesChains.Proofs.Selection.RefreshAgain
import FuturesChains.Proofs.Selection.ChainLocality
import FuturesChains.Proofs.Selection.StepLocality
import FuturesChains.Proofs.Selection.ActiveOrder
import FuturesChains.Proofs.Selection.ModelOrder
import FuturesChains.Proofs.Selection.IndependentModels
import FuturesChains.Proofs.Selection.FirstFault
import FuturesChains.Proofs.Selection.ResolvedSecurity
import FuturesChains.Proofs.Selection.LiveContracts
import FuturesChains.Proofs.Instrument.ExpiryWindow
import FuturesChains.Proofs.Instrument.MonthSplit
import FuturesChains.Proofs.Instrument.CodeGrammar
import FuturesChains.Proofs.Market.SessionWindows
import FuturesChains.Proofs.Selection.MinimumTime
import FuturesChains.Proofs.Text.Parts
import FuturesChains.Proofs.Config.ChainList
import FuturesChains.Proofs.Calendar.TimestampYear
import FuturesChains.Proofs.Calendar.TimestampGrammar
import FuturesChains.Proofs.Config.AcceptedTexts
import FuturesChains.Proofs.Config.VariableOrder
import FuturesChains.Proofs.Calendar.MonthNumber
import FuturesChains.Proofs.Instrument.MonthlyListing
import FuturesChains.Proofs.Market.EntryHistory
