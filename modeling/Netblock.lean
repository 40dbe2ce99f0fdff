import Netblock.Family
import Netblock.Positional
import Netblock.Octets
import Netblock.Text.Blank
import Netblock.Text.Decimal
import Netblock.Text.Hex
import Netblock.Text.Malformation
import Netblock.Text.DottedQuad
import Netblock.Text.ColonHex
import Netblock.Address.Basic
import Netblock.Address.Text
import Netblock.Network.Basic
import Netblock.Error
import Netblock.Address.Literal
import Netblock.Address.Arithmetic
import Netblock.Network.Covering
import Netblock.Network.Literal
import Netblock.Network.Bounds
import Netblock.Network.Usable
import Netblock.Network.Block
import Netblock.Network.Split
import Netblock.Network.Merge
import Netblock.Interface
import Netblock.MacAddress.Basic
import Netblock.MacAddress.Literal
import Netblock.MacAddress.InterfaceId
import Netblock.Plain
import Netblock.Textual
import Netblock.Sorted
import Netblock.Report
import Netblock.CommandLine
import Netblock.Main
import Netblock.Proofs.Order
import Netblock.Proofs.Bounds
import Netblock.Proofs.Blocks
import Netblock.Proofs.Tiling
import Netblock.Proofs.Split
import Netblock.Proofs.Merge
import Netblock.Proofs.MergeFailures
import Netblock.Proofs.NestedTiling
import Netblock.Proofs.Stages
import Netblock.Proofs.Outcome
import Netblock.Proofs.Numerals
import Netblock.Proofs.DottedQuadGrammar
import Netblock.Proofs.ColonHexGrammar
import Netblock.Proofs.AddressGrammar
import Netblock.Proofs.EmbeddingMark
import Netblock.Proofs.WrittenForm
import Netblock.Proofs.SlashLiteral
import Netblock.Proofs.RoundTrip
import Netblock.Proofs.LiteralSides
import Netblock.Proofs.ClassfulPrefix
import Netblock.Proofs.NetworkGrammar
import Netblock.Proofs.LiteralKinds
import Netblock.Proofs.Constructions
import Netblock.Proofs.PlainExchange
import Netblock.Proofs.Session
import Netblock.Proofs.ErrorContents
import Netblock.Proofs.Validity
import Netblock.Proofs.NetworkMarks
import Netblock.Proofs.MarkInvariant
import Netblock.Proofs.SplitMarks
import Netblock.Proofs.PrintedBlocks
import Netblock.Proofs.SplitRefusals
import Netblock.Proofs.EmbeddedNetwork
import Netblock.Proofs.MarkIndependence
import Netblock.Proofs.Membership
import Netblock.Proofs.Nesting
import Netblock.Proofs.NestedHosts
import Netblock.Proofs.Span
import Netblock.Proofs.SortedNetworks
import Netblock.Proofs.Offsets
import Netblock.Proofs.NumericOrder
import Netblock.Proofs.InterfaceIds
import Netblock.Proofs.MacGrammar
import Netblock.Proofs.Stepping
import Netblock.Proofs.AdjacentBlocks
import Netblock.Proofs.Words.Checked
import Netblock.Proofs.Words.Mask
import Netblock.Proofs.Words.Bounds
import Netblock.Proofs.Words.Blocks
import Netblock.Proofs.Words.Literals
import Netblock.Proofs.Words
