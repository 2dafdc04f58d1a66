import HostParsing.Host.Parser
import HostParsing.Main
import HostParsing.Session.Call
import HostParsing.Proofs.Buffer.Refinement
import HostParsing.Proofs.Buffer.Text
import HostParsing.Proofs.Registry.Refinement
import HostParsing.Proofs.Registry.Stale
import HostParsing.Proofs.Session.Cancellation
import HostParsing.Proofs.Session.Exit
import HostParsing.Proofs.Session.Refused
import HostParsing.Proofs.Session.Rounds
import HostParsing.Proofs.Registry.Kept
import HostParsing.Proofs.Registry.Layout
import HostParsing.Proofs.Session.Tally
import HostParsing.Proofs.Session.Held
import HostParsing.Proofs.Session.Engine
import HostParsing.Proofs.Session.Late
import HostParsing.Proofs.Host.Relay
import HostParsing.Proofs.Host.Checks
import HostParsing.Proofs.Host.Calls
import HostParsing.Proofs.Session.Destroyed
import HostParsing.Proofs.Session.Limit
import HostParsing.Proofs.Host.Limit
import HostParsing.Proofs.Buffer.Demands
import HostParsing.Proofs.Buffer.Replacement
import HostParsing.Proofs.Command.Ending
import HostParsing.Proofs.Toml.Number
import HostParsing.Proofs.Toml.Quoted
import HostParsing.Proofs.Toml.Document
import HostParsing.Proofs.Files.Tree
import HostParsing.Proofs.Settings.File
import HostParsing.Proofs.Text.Forgiving
import HostParsing.Proofs.Registry.Slices
import HostParsing.Proofs.Buffer.Growth
import HostParsing.Proofs.Buffer.Offsets
import HostParsing.Proofs.Session.Requests
import HostParsing.Proofs.Session.Waiting
import HostParsing.Proofs.Session.Locked
import HostParsing.Proofs.Session.Stepwise
import HostParsing.Proofs.Command.Arguments
import HostParsing.Proofs.Registry.Independent
import HostParsing.Proofs.Words.Exact
