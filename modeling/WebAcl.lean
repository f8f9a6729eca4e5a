import WebAcl.KeyTable
import WebAcl.ManagedGroup
import WebAcl.Name
import WebAcl.ResponseBody
import WebAcl.Magnitude.Basic
import WebAcl.Magnitude.Shortest
import WebAcl.Text.Quoted
import WebAcl.AclError
import WebAcl.Build
import WebAcl.Document.Basic
import WebAcl.Document.Json
import WebAcl.Document.MessagePack
import WebAcl.Template
import WebAcl.Intents
import WebAcl.Json.Scan
import WebAcl.Json.Skip
import WebAcl.Intents.Reading
import WebAcl.Command.Arguments
import WebAcl.Command.FileStore
import WebAcl.Command.Report
import WebAcl.Command.Run
import WebAcl.Main
import WebAcl.Proofs.Reference
import WebAcl.Proofs.Visiting
import WebAcl.Proofs.RepeatedNames
import WebAcl.Proofs.Asked
import WebAcl.Proofs.Provisioning
import WebAcl.Proofs.Building
import WebAcl.Proofs.SoundList
import WebAcl.Proofs.Verdict
import WebAcl.Proofs.Session
import WebAcl.Proofs.Interleaving
import WebAcl.Proofs.IntentVerdict
import WebAcl.Proofs.BodyTable
import WebAcl.Proofs.DirectTemplate
import WebAcl.Proofs.Json.Grammar
import WebAcl.Proofs.Json.Scanning
import WebAcl.Proofs.Json.Skipping
import WebAcl.Proofs.Json.Reading
import WebAcl.Proofs.Json.Values
import WebAcl.Proofs.Json.Records
import WebAcl.Proofs.Json.Places
import WebAcl.Proofs.AcceptedIntents
import WebAcl.Proofs.WrittenIntents
import WebAcl.Proofs.StrayFields
import WebAcl.Proofs.Json.Rendering
import WebAcl.Proofs.MessagePack.Grammar
import WebAcl.Proofs.MessagePack.Rendering
import WebAcl.Proofs.Layout
import WebAcl.Proofs.DistinctKeys
import WebAcl.Proofs.Renderings
import WebAcl.Proofs.NormalForms
import WebAcl.Proofs.SharedNames
import WebAcl.Proofs.NameClashes
import WebAcl.Proofs.WellFormed
import WebAcl.Proofs.FirstOccurrences
import WebAcl.Proofs.ManagedRules
import WebAcl.Proofs.NameLanguages
import WebAcl.Proofs.NameWarnings
import WebAcl.Proofs.IntentLog
import WebAcl.Proofs.ShownLimits
import WebAcl.Proofs.LimitLiterals
import WebAcl.Proofs.Command.Agreement
