import PatternScan.Automaton.Table
import PatternScan.Rule.Compiler
namespace PatternScan
open Condition
structure RuleSet where
 spaces:Array String
 rules:Array Rule
 strings:Array RuleString
 externals:Array External
 code:Array Instruction
 regexCode:Regex.Code
 table:Automaton.Table
 given:List String:=[]
deriving Inhabited
def Rule.Compiler.ruleSet (c:Compiler):RuleSet:=
 { spaces:=c.spaces
   rules:=c.rules
   strings:=c.strings
   externals:=c.externals
   code:=program c.sections
   regexCode:=c.regexCode
   table:=c.trie.table }
namespace RuleSet
def rule (s:RuleSet)(i:Nat):Rule:=s.rules.getD i default
def string (s:RuleSet)(i:Nat):RuleString:=s.strings.getD i default
def spaceOf (s:RuleSet)(r:Rule):String:=s.spaces.getD r.space ""
def ruleNumber? (s:RuleSet)(name:String):Option Nat:=
 s.rules.findIdx? (·.name==name)
def setDisabled (s:RuleSet)(i:Nat)(disabled:Bool):RuleSet:=
 { s with
   rules:=s.rules.modify i fun r=>{r with disabled:=disabled}
   strings:=(s.rule i).strings.foldl (fun strings k=>
    strings.modify k fun x=>{x with flags:={x.flags with disabled:=disabled}}) s.strings }
def define (s:RuleSet)(name:String)(value:ExternalValue):ResultCode×RuleSet:=
 match s.externals.findIdx? (·.name==name) with
 | none=>(.invalidArgument,s)
 | some i=>
  let fits:=
   match (s.externals.getD i default).value,value with
   | .integer _,.integer _ | .boolean _,.boolean _ | .float _,.float _ | .text _,.text _=>
    true
   | _,_=>false
  if fits then
   (.success,{ s with
    externals:=s.externals.setIfInBounds i ⟨name,value⟩
    given:=if value.isText then name::s.given else s.given })
  else (.invalidExternalVariableType,s)
end RuleSet
/-! Only the sizes of the parts of a stored rule set are kept: they decide how a stream that was cut is refused. -/
structure StoredRules where
 set:RuleSet
def RuleSet.store? (s:RuleSet):Option StoredRules:=
 if s.given.isEmpty then some ⟨s⟩ else none
namespace StoredRules
def headerSize:Nat:=6
def sectionTable:Nat:=12*12

/-- The bytes that the stream has at least: the two tables of the automaton have four bytes for each
slot. -/
def leastSize (s:StoredRules):Nat:=
 headerSize+sectionTable+8*s.set.table.transitions.size
def load (s:StoredRules)(kept:Option Nat):Except ResultCode RuleSet:=
 match kept with
 | none=>.ok s.set
 | some n=>
  if n<headerSize then .error .invalidFile
  else if n<s.leastSize then .error .corruptFile
  else .ok s.set
end StoredRules
end PatternScan
