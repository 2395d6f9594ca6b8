import AgentEcosystem.Cashflow.FieldCheck
import AgentEcosystem.Cashflow.Writes
import AgentEcosystem.Semantics.Runs
import AgentEcosystem.Cashflow.LedgerRuns
import AgentEcosystem.Cashflow.InflowSplit
import AgentEcosystem.Decimal.DecimalText
import AgentEcosystem.Cashflow.EmergencyTransfers
import AgentEcosystem.Llm.ModelRouter
import AgentEcosystem.Llm.LlmClient
import AgentEcosystem.Llm.SpendAccounting
import AgentEcosystem.Llm.ConcurrentCalls
import AgentEcosystem.Json.JsonText
import AgentEcosystem.Preregistration.CanonicalJson
import AgentEcosystem.CodeBuilder.BuildSchemas
import AgentEcosystem.CodeBuilder.Rendering
import AgentEcosystem.CodeBuilder.Validator
import AgentEcosystem.CodeBuilder.Builder
import AgentEcosystem.Tools.ToolRegistry
import AgentEcosystem.Tools.RiskEscalation
import AgentEcosystem.Semantics.GuardedSection
import AgentEcosystem.Ethics.EthicsService
import AgentEcosystem.Ethics.SingleFlight
import AgentEcosystem.Semantics.OrderedDict
import AgentEcosystem.Supervisor.ChildSupervisor
import AgentEcosystem.Supervisor.ChildEffects
import AgentEcosystem.Supervisor.KilledChildren
import AgentEcosystem.Llm.MonthlyBudget
import AgentEcosystem.Cashflow.ErrorAtomicity
import AgentEcosystem.Json.JsonRoundTrip
import AgentEcosystem.Preregistration.CanonicalRoundTrip
import AgentEcosystem.Preregistration.Register
import AgentEcosystem.Text.Utf8RoundTrip
import AgentEcosystem.Preregistration.LockHash
import AgentEcosystem.Preregistration.Tampering
import AgentEcosystem.Text.Tokens
import AgentEcosystem.Operator.OperatorParser
import AgentEcosystem.Operator.CommandGrammar
import AgentEcosystem.Gmail.PushWebhook
import AgentEcosystem.Gmail.LostCommands
import AgentEcosystem.Gmail.Senders
import AgentEcosystem.Json.IndentedJson
import AgentEcosystem.Ops.FreezeExperiment
import AgentEcosystem.Ops.DriftChecks
import AgentEcosystem.Supervisor.KillSwitch
import AgentEcosystem.Supervisor.AutoKill
import AgentEcosystem.Supervisor.Restart
import AgentEcosystem.Mother.ExpansionLadder
import AgentEcosystem.Cashflow.SplitExactness
import AgentEcosystem.Python.ByteCode
import AgentEcosystem.Tools.ToolRuntime
import AgentEcosystem.Tools.Retirement
import AgentEcosystem.Tools.EthicsGate
import AgentEcosystem.CodeBuilder.ArtifactDigest
import AgentEcosystem.CodeBuilder.SignedBuilds
import AgentEcosystem.Tools.ShadowSwap
import AgentEcosystem.Llm.LowWaterDowngrade
import AgentEcosystem.Mother.LadderRuns
import AgentEcosystem.Cashflow.CappedInflow
import AgentEcosystem.Operator.SignCommand
import AgentEcosystem.Operator.AuditHash
import AgentEcosystem.Text.Urls
import AgentEcosystem.Tools.DomainGuard
import AgentEcosystem.Python.EscapeDecoding
import AgentEcosystem.CodeBuilder.GeneratedModule
import AgentEcosystem.Python.ImportStatements
import AgentEcosystem.CodeBuilder.EscalationGaps
import AgentEcosystem.Text.Base64RoundTrip
import AgentEcosystem.Gmail.MailBody
import AgentEcosystem.Llm.PriceBounds
import AgentEcosystem.Supervisor.StableDecisions
import AgentEcosystem.Supervisor.BudgetGate
import AgentEcosystem.Preregistration.FloatBan
import AgentEcosystem.Ethics.VerdictJson
import AgentEcosystem.Ethics.PromptDrift
import AgentEcosystem.CodeBuilder.CleanBuilds
import AgentEcosystem.Cashflow.Reconciliation
import AgentEcosystem.Cashflow.ExactBank
import AgentEcosystem.Db.SessionScope
import AgentEcosystem.Semantics.Views
import AgentEcosystem.Supervisor.Interleavings
import AgentEcosystem.Supervisor.LiveChildren
import AgentEcosystem.Supervisor.ExactTotals
import AgentEcosystem.Gmail.Deliveries
import AgentEcosystem.Gmail.FormLetters
import AgentEcosystem.Semantics.LockedTables
import AgentEcosystem.Preregistration.LockedRows
import AgentEcosystem.Semantics.LockProgress
import AgentEcosystem.Ethics.ReviewProgress
import AgentEcosystem.Tools.RegistryHistory
import AgentEcosystem.Text.ShellWords
import AgentEcosystem.CodeBuilder.Sandbox
import AgentEcosystem.Tools.TestedTools
import AgentEcosystem.Semantics.Emissions
import AgentEcosystem.Llm.SharedLedger
import AgentEcosystem.Channels.BaseClient
import AgentEcosystem.Channels.Clients
import AgentEcosystem.Channels.RequestHosts
import AgentEcosystem.Semantics.RoseTrees
import AgentEcosystem.Ops.ChannelLint
import AgentEcosystem.Calendar
import AgentEcosystem.Ops.WeeklyDigest
import AgentEcosystem.Channels.HealthCycle
import AgentEcosystem.Channels.MoneyMoved
import AgentEcosystem.Ops.SimulationMode
import AgentEcosystem.Operator.SignedMails
