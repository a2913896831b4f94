import PatternScan.Object.Path
import PatternScan.Proofs.Arena.Growth
import PatternScan.Proofs.Condition.Folding
import PatternScan.Proofs.Condition.Loops
import PatternScan.Proofs.Condition.Safety
import PatternScan.Proofs.Dex.Members
import PatternScan.Proofs.Dotnet.Columns
import PatternScan.Proofs.Dotnet.UserStrings
import PatternScan.Proofs.Elf.Symbols
import PatternScan.Proofs.HexString.Ordering
import PatternScan.Proofs.MachO.ByteOrder
import PatternScan.Proofs.Module.Statistics
import PatternScan.Proofs.Object.Arrays
import PatternScan.Proofs.Pe.Matching
import PatternScan.Proofs.Regex.Termination
import PatternScan.Proofs.Regex.Unrolling
import PatternScan.Proofs.Rule.Tokens
import PatternScan.Proofs.Rule.Wildcards
import PatternScan.Proofs.Scan.Delimiters
import PatternScan.Proofs.Scan.Order
import PatternScan.Proofs.Varints
import PatternScan.Regex.Printer
import PatternScan.Stack
