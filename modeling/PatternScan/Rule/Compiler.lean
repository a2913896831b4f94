import Std.Data.TreeMap
import PatternScan.Automaton.Trie
import PatternScan.Condition.Code
import PatternScan.Rule.Lexer
open PatternScan.Limits PatternScan.Condition
namespace PatternScan
/-! Compiled rules, strings and namespaces refer to one another by number. -/
inductive MetaValue where
 | text (value:String)
 | integer (value:Int64)
 | boolean (value:Bool)
structure Meta where
 name:String
 value:MetaValue

/-- The part that a string follows, and the bytes that may lie between the two. -/
structure ChainLink where
 previous:Nat
 least:Int
 most:Int
deriving DecidableEq,Inhabited
structure RuleString where
 name:String
 index:Nat
 rule:Nat
 flags:StringFlags
 text:Bytes
 fixedOffset:Int64:=undefinedInteger
 link:Option ChainLink:=none
deriving Inhabited
structure Rule where
 name:String
 space:Nat
 hidden:Bool
 /-- Whether the rules of the namespace can only match if this one does. -/
 everywhere:Bool
 disabled:Bool:=false
 tags:List String:=[]
 metas:List Meta:=[]
 firstString:Nat:=0
 stringCount:Nat:=0
 required:Nat:=0
 atoms:Nat:=0
deriving Inhabited
namespace Rule
def flagNumber (r:Rule):Nat:=
 (if r.hidden then 1 else 0)+(if r.everywhere then 2 else 0)+(if r.disabled then 8 else 0)
def strings (r:Rule):List Nat:=List.range' r.firstString r.stringCount
end Rule
inductive ExternalValue where
 | integer (value:Int64)
 | boolean (value:Int64)
 | float (value:Float)
 | text (value:Bytes)
deriving Inhabited
def ExternalValue.object:ExternalValue→Object
 | .integer v=>.integer v
 | .boolean v=>.integer v
 | .float x=>.float x
 | .text b=>.text (some b)
def ExternalValue.isText:ExternalValue→Bool
 | .text _=>true
 | _=>false
structure External where
 name:String
 value:ExternalValue
deriving Inhabited
end PatternScan
namespace PatternScan.Rule
/-! A failure of the compiler has a code and sometimes a detail. -/
inductive Severity where
 | error | warning
 deriving DecidableEq
structure Message where
 severity:Severity
 file:Option String
 line:Nat
 rule:Option String
 text:String
def cut (size:Nat)(s:String):String:=String.ofList (s.toList.take (size-1))
private def quoted (s:String):String:="\""++s++"\""
def failureText (code:ResultCode)(detail:String)(stringLimit:Nat):String:=
 match code with
 | .insufficientMemory=>"not enough memory"
 | .duplicatedIdentifier=>"duplicated identifier "++quoted detail
 | .duplicatedStringIdentifier=>"duplicated string identifier "++quoted detail
 | .duplicatedTagIdentifier=>"duplicated tag identifier "++quoted detail
 | .duplicatedMetaIdentifier=>"duplicated metadata identifier "++quoted detail
 | .duplicatedLoopIdentifier=>"duplicated loop identifier "++quoted detail
 | .undefinedString=>"undefined string "++quoted detail
 | .undefinedIdentifier=>"undefined identifier "++quoted detail
 | .unreferencedString=>"unreferenced string "++quoted detail
 | .emptyString=>"empty string "++quoted detail
 | .notAStructure=>quoted detail++" is not a structure"
 | .notIndexable=>quoted detail++" is not an array or dictionary"
 | .notAFunction=>quoted detail++" is not a function"
 | .invalidFieldName=>"invalid field name "++quoted detail
 | .misplacedAnonymousString=>"wrong use of anonymous string"
 | .includesCircularReference=>"include circular reference"
 | .includeDepthExceeded=>"too many levels of included rules"
 | .loopNestingLimitExceeded=>"loop nesting limit exceeded"
 | .nestedForOfLoop=>"'for <quantifier> of <string set>' loops can't be nested"
 | .unknownModule=>"unknown module "++quoted detail
 | .invalidModuleName=>"invalid module name "++quoted detail
 | .duplicatedStructureMember=>"duplicated structure member"
 | .wrongArguments=>"wrong arguments for function "++quoted detail
 | .wrongReturnType=>"wrong return type for overloaded function"
 | .invalidHexString | .invalidRegularExpression | .syntaxError | .wrongType | .invalidModifier
 | .invalidPercentage=>detail
 | .internalFatalError=>"internal fatal error"
 | .divisionByZero=>"division by zero"
 | .regularExpressionTooLarge=>"regular expression is too large"
 | .regularExpressionTooComplex=>"regular expression is too complex"
 | .tooManyStrings=>
  "too many strings in rule "++quoted detail++" (limit: "++toString stringLimit++")"
 | .integerOverflow=>"integer overflow in "++quoted detail
 | .couldNotReadFile=>"could not read file"
 | .duplicatedModifier=>"duplicated modifier"
 | .identifierMatchesWildcard=>
  "rule identifier "++quoted detail++" matches previously used wildcard rule set"
 | .invalidValue=>"invalid value in condition: "++quoted detail
 | _=>""
inductive Kind where
 | unknown | boolean | integer | text | regexp | object | float | quantifier
deriving DecidableEq,Inhabited
structure LoopVariable where
 name:Option String:=none
 kind:Kind:=.unknown
 word:Int64:=0
 object:Object:=.integer 0

/-- A level keeps the types of its variables when a loop ends; the next loop on the level sees them until it gives
them others. -/
structure LoopLevel where
 first:LoopVariable:={}
 second:LoopVariable:={}
 count:Nat:=0
namespace LoopLevel
def named (l:LoopLevel):List LoopVariable:=[l.first,l.second].take l.count
def clean (l:LoopLevel):LoopLevel:=
 let drop (n:Nat)(v:LoopVariable):LoopVariable:=
  if n<l.count then {v with name:=none} else v
 {first:=drop 0 l.first,second:=drop 1 l.second,count:=0}
end LoopLevel
structure Setting where
 includes:Option (List (Bytes×Bytes)):=some []
 strict:Bool:=false
 quality:QualityRule:=.heuristic
 qualityWarning:Int:=atomQualityWarning
 stringLimit:Nat:=10000
 modules:String→Option Object:=fun _=>none
abbrev Names (α:Type):Type:=
 Std.TreeMap (String×String) α (compareLex (compareOn Prod.fst) (compareOn Prod.snd))
structure Compiler where
 setting:Setting:={}
 lexer:Lexer:={buffers:=[]}
 -- what has been compiled
 spaces:Array String:=#[]
 rules:Array Rule:=#[]
 ruleNumbers:Names Nat:=∅
 strings:Array RuleString:=#[]
 externals:Array External:=#[]
 sections:Array Section:=#[]
 regexCode:Regex.Code:=.empty
 trie:Automaton.Trie:={}
 -- what names mean
 globals:Std.TreeMap String Object:=∅
 modules:Names Object:=∅
 wildcards:List (String×String):=[]
 literals:Array Bytes:=#[]
 -- where the compiler is
 space:Nat:=0
 rule:Option Nat:=none
 stringNames:List String:=[]
 files:List String:=[]
 line:Nat:=0
 levels:Array LoopLevel:=Array.replicate loopNesting {}
 depth:Nat:=0
 stringSlot:Option Nat:=none
 -- what has been reported
 messages:Array Message:=#[]
 errors:Nat:=0
 failure:ResultCode:=.success
 failureLine:Nat:=0
 detail:String:=""
namespace Compiler
def messageLine (c:Compiler):Nat:=if c.line != 0 then c.line else c.lexer.line
def spaceName (c:Compiler):String:=c.spaces.getD c.space ""
def ruleName (c:Compiler):Option String:=
 c.rule.bind fun i=>(c.rules[i]?).map (·.name)
def message (c:Compiler)(severity:Severity)(line:Nat)(text:String):Message:=
 {severity:=severity,file:=c.files.head?,line:=line,rule:=c.ruleName,text:=text}
def setDetail (c:Compiler)(detail:String):Compiler:=
 {c with detail:=cut Limits.message detail}
def countError (c:Compiler):Compiler:=
 {c with errors:=c.errors+1,failureLine:=c.messageLine,line:=0}
def reportText (c:Compiler)(text:String):Compiler:=
 let c:={(c.countError.setDetail text) with failure:=.syntaxError}
 {c with messages:=c.messages.push (c.message .error c.failureLine text)}
def failureMessage (c:Compiler):String:=
 cut 512 (failureText c.failure c.detail c.setting.stringLimit)
def reportCode (c:Compiler)(code:ResultCode):Compiler:=
 let c:={c with failure:=code}.countError
 {c with messages:=c.messages.push (c.message .error c.failureLine c.failureMessage)}
def warn (c:Compiler)(text:String):Compiler:=
 {c with messages:=c.messages.push (c.message .warning c.messageLine (cut 512 text))}
def pushFile (c:Compiler)(name:String):Except ResultCode Compiler:=
 if c.files.contains name then .error .includesCircularReference
 else if c.files.length==includeDepth then .error .includeDepthExceeded
 else .ok {c with files:=name::c.files}
def popFile (c:Compiler):Compiler:={c with files:=c.files.drop 1}
def enterSpace (c:Compiler)(name:String):Compiler:=
 match c.spaces.findIdx? (· == name) with
 | some i=>{c with space:=i}
 | none=>{c with spaces:=c.spaces.push name,space:=c.spaces.size}
def ruleNumber? (c:Compiler)(name:String):Option Nat:=c.ruleNumbers[(c.spaceName,name)]?
def ruleStrings (c:Compiler):List Nat:=
 match c.rule.bind (c.rules[·]?) with
 | some r=>r.strings
 | none=>[]
def string (c:Compiler)(i:Nat):RuleString:=c.strings.getD i default
def modifyString (c:Compiler)(i:Nat)(f:RuleString→RuleString):Compiler:=
 {c with strings:=c.strings.modify i f}
def modifyRule (c:Compiler)(f:Rule→Rule):Compiler:=
 match c.rule with
 | some i=>{c with rules:=c.rules.modify i f}
 | none=>c
def openLevels (c:Compiler):List LoopLevel:=c.levels.toList.take c.depth
def frame (c:Compiler):Nat:=
 (c.openLevels.dropLast).foldl (fun n l=>n+loopSlots+l.count) 0
def loopVariable? (c:Compiler)(name:String):Option (Nat×LoopVariable):=
 let rec search (slot:Nat):List LoopLevel→Option (Nat×LoopVariable)
  | []=>none
  | l::rest=>
   let first:=slot+loopSlots
   match l.named.zipIdx.find? fun (v,_)=>v.name==some name with
   | some (v,j)=>some (first+j,v)
   | none=>search (first+l.count) rest
 search 0 c.openLevels
def modifyLoop (c:Compiler)(f:LoopLevel→LoopLevel):Compiler:=
 {c with levels:=c.levels.modify (c.depth-1) f}
def currentLoop (c:Compiler):LoopLevel:=c.levels.getD (c.depth-1) {}
end Compiler
inductive Interruption where
 | failed | stopped
abbrev Action (α:Type):=ExceptT Interruption (StateM Compiler) α
namespace Action
def fail {α:Type}(code:ResultCode):Action α:=do
 modify (·.reportCode code)
 throw (if code==.insufficientMemory then .stopped else .failed)
def failWith {α:Type}(code:ResultCode)(detail:String):Action α:=do
 modify (·.setDetail detail)
 fail code
def ofExcept {α:Type}(r:Except ResultCode α):Action α:=
 match r with
 | .ok a=>pure a
 | .error code=>fail code
def warn (text:String):Action Unit:=modify (·.warn text)
end Action
end PatternScan.Rule
