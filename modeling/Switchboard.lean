import Switchboard.Main
import Switchboard.Summary
import Switchboard.Proofs.Plan
import Switchboard.Proofs.Agenda
import Switchboard.Proofs.Moments
import Switchboard.Proofs.Gate
import Switchboard.Proofs.InitFirst
import Switchboard.Proofs.Once
import Switchboard.Proofs.Setup
import Switchboard.Proofs.Replay
import Switchboard.Proofs.Isolation
import Switchboard.Proofs.LongestLibrary
import Switchboard.Proofs.Replies
import Switchboard.Proofs.ResultKeys
import Switchboard.Proofs.Agreement
import Switchboard.Proofs.RouteText
import Switchboard.Proofs.Justified
import Switchboard.Proofs.Grouping
import Switchboard.Proofs.Order
import Switchboard.Proofs.Intake
import Switchboard.Proofs.SideBySide
import Switchboard.Proofs.ZoneOff
import Switchboard.Proofs.Rerun
import Switchboard.Proofs.Guards
import Switchboard.Proofs.Influence
import Switchboard.Proofs.Shuffle
import Switchboard.Proofs.Registration
import Switchboard.Proofs.Precedence
import Switchboard.Proofs.LastRoute
import Switchboard.Proofs.Repetition
import Switchboard.Proofs.TokenGrammar
import Switchboard.Proofs.StableGrouping
import Switchboard.Proofs.Extraction
import Switchboard.Proofs.HeldNames
import Switchboard.Proofs.DirectiveFlags
import Switchboard.Proofs.RawLines
import Switchboard.Proofs.WireForms
import Switchboard.Proofs.PlannedOnce
import Switchboard.Proofs.ModuleSearch
