import PatternScan.Condition.Expression
import PatternScan.Regex.Machine
import PatternScan.Scan.Source
/-! A function of a module sees its arguments, which are all defined, the scanned data, and the code of
the regular expressions. -/
namespace PatternScan.Module
open Bytes Regex
open Condition (Cell Matcher)
structure Call where
 arguments:List Cell
 blocks:List Scan.SourceBlock
 regexCode:Code
namespace Call
def argument (c:Call)(n:Nat):Cell:=c.arguments.getD (n-1) default
def integer (c:Call)(n:Nat):Int64:=(c.argument n).word
def float (c:Call)(n:Nat):Float:=(c.argument n).toFloat
def text (c:Call)(n:Nat):Bytes:=
 match c.argument n with
 | .text b=>b
 | _=>ByteArray.empty
def name (c:Call)(n:Nat):Bytes:=untilNul (c.text n)
def range (c:Call)(n:Nat):Option (List Bytes):=
 Scan.Source.range (c.integer n) (c.integer (n+1)) c.blocks
def matchLength? (c:Call)(n:Nat)(text:Bytes):Option Nat:=
 match c.argument n with
 | .matcher m=>
  let flags:RunFlags:=
   {RunFlags.none with search:=true,ignoreCase:=m.noCase,dotAll:=m.dotAll}
  (run c.regexCode m.address flags ⟨untilNul text,0⟩).last?
 | _=>none
def isMatch (c:Call)(n:Nat)(text:Bytes):Bool:=(c.matchLength? n text).isSome
end Call
def truth (b:Bool):Object:=.integer (if b then 1 else 0)
def textResult (b:Bytes):Object:=.text (some (untilNul b))
def overloaded (result:Object)(overloads:List (String×Builtin)):Object:=
 .function (overloads.map fun (letters,f)=>⟨letters,f⟩) result
end PatternScan.Module
