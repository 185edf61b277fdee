import PeerMessaging.Text.Units
import PeerMessaging.Text.Utf8
import PeerMessaging.Number.Binary
import PeerMessaging.Number.Shortest
import PeerMessaging.Number.Format
import PeerMessaging.Number.Read
import PeerMessaging.Value.Basic
import PeerMessaging.Value.Convert
import PeerMessaging.Json.Read
import PeerMessaging.Json.Write
import PeerMessaging.Fault
import PeerMessaging.Registry
import PeerMessaging.ByteFrames.Message
import PeerMessaging.ByteFrames.Frame
import PeerMessaging.JsonLines.Message
import PeerMessaging.JsonLines.Frame
import PeerMessaging.Exchange
import PeerMessaging.Transport.Messenger
import PeerMessaging.Transport.Script
import PeerMessaging.Discovery.PeerTable
import PeerMessaging.Discovery.Config
import PeerMessaging.Discovery.Session
import PeerMessaging.LogLevel
import PeerMessaging.Cli.Arguments
import PeerMessaging.Cli.Command
import PeerMessaging.Main
import PeerMessaging.Proofs.Utf8
import PeerMessaging.Proofs.Reading
import PeerMessaging.Proofs.ByteFrames
import PeerMessaging.Proofs.TextFrames
import PeerMessaging.Proofs.Receiving
import PeerMessaging.Proofs.WholeNumbers
import PeerMessaging.Proofs.Sending
import PeerMessaging.Proofs.Nearest
import PeerMessaging.Proofs.ShortestDigits
import PeerMessaging.Proofs.FloatFields
import PeerMessaging.Proofs.NumberText
import PeerMessaging.Proofs.JsonValues
import PeerMessaging.Proofs.TextMessages
import PeerMessaging.Proofs.SelfDelimiting
import PeerMessaging.Proofs.Utf8Forms
import PeerMessaging.Proofs.ByteGrammar
import PeerMessaging.Proofs.Closing
import PeerMessaging.Proofs.IdentityExchange
import PeerMessaging.Proofs.JsonReading
import PeerMessaging.Proofs.TextGrammar
import PeerMessaging.Proofs.RegistryKeys
import PeerMessaging.Proofs.IdentityFrames
import PeerMessaging.Proofs.ReceivedAttributes
import PeerMessaging.Proofs.TextEncoding
import PeerMessaging.Proofs.RegistryHistory
import PeerMessaging.Proofs.FrameHeader
import PeerMessaging.Proofs.PeerClaims
import PeerMessaging.Proofs.ConfigResolution
import PeerMessaging.Proofs.CommandLine
