import PatternScan.Condition.Expression
namespace PatternScan.Condition
open Int64
open Rule (NumberReader TextOperator Comparison Arithmetic BitOperator Quantifier)
inductive NumberKind where
 | integer | float | text
 deriving DecidableEq
inductive IteratorKind where
 | array | dictionary | range | integers | texts | strings
 deriving DecidableEq
inductive Instruction where
 | pushInteger (value:Int64)
 | pushFloat (value:Float)
 | pushText (bytes:Bytes)
 | pushMatcher (m:Matcher)
 | pushString (index:Nat)
 | pushUndefined | pop
 | pushSlot (slot:Nat)
 | popSlot (slot:Nat)
 | clearSlot (slot:Nat)
 | incrementSlot (slot:Nat)
 | addToSlot (slot:Nat)
 | pushObject (name:String)
 | member (name:String)
 | item | entry
 | call (letters:String)
 | objectValue
 | pushRule (index:Nat)
 | fileSize | entryPoint
 | read (kind:NumberReader)
 | count | countIn | offset | length | found | foundAt | foundIn
 | negative (float:Bool)
 | complement
 | toFloat (depth:Nat)
 | arithmetic (op:Arithmetic)(kind:NumberKind)
 | comparison (op:Comparison)(kind:NumberKind)
 | bits (op:BitOperator)
 | textOperation (op:TextOperator)
 | textMatches | textTruth | not | defined | and | or
 | jumpIfFalse (distance:Int)
 | jumpIfTrue (distance:Int)
 | popAndJumpIfTrue (distance:Int)
 | someStrings | someRules | percentOfStrings | percentOfRules | someStringsIn | someStringsAt
 | startIterator (kind:IteratorKind)
 | nextItem | loopCondition | loopResult
 | importModule (name:String)
 | openRule (index:Nat)(distance:Int)
 | closeRule (index:Nat)
 | halt
deriving Inhabited
namespace StringOperand
def code:StringOperand→List Instruction
 | .string i=>[.pushString i]
 | .variable slot=>[.pushSlot slot]
end StringOperand
namespace Operands
def conversion:Operands→List Instruction
 | .integerAndFloat=>[.toFloat 2]
 | .floatAndInteger=>[.toFloat 1]
 | _=>[]
def kind:Operands→NumberKind
 | .integers=>.integer
 | .texts=>.text
 | _=>.float
end Operands
def stringPushes (strings:List Nat):List Instruction:=
 .pushUndefined::strings.map .pushString
def rulePushes (rules:List Nat):List Instruction:=
 .pushUndefined::rules.map .pushRule
def quantifierCode:Quantifier→Instruction
 | .all=>.pushUndefined
 | .any=>.pushInteger 1
 | .none=>.pushInteger 0
def variablePops (first:Nat)(count:Nat):List Instruction:=
 (List.range count).map fun i=>.popSlot (first+i)
def constant (v:Int64):Instruction:=
 if v==undefinedInteger then .pushUndefined else .pushInteger v
def loopSlots:Nat:=3
def loopCode (frame taken:Nat)(quantity items body:List Instruction):List Instruction:=
 let pops:=variablePops (frame+loopSlots) taken
 let turn:=body++[Instruction.incrementSlot (frame+1),.pushSlot frame,.pushSlot (frame+2),
  .loopCondition,.addToSlot frame]
 quantity++[Instruction.clearSlot frame,.clearSlot (frame+1),.popSlot (frame+2)]++items
  ++ [Instruction.nextItem]++pops++[Instruction.popAndJumpIfTrue (turn.length+2)]++turn
  ++ [Instruction.popAndJumpIfTrue (-(turn.length+pops.length+2:Int))]
  ++ [Instruction.pop,.pushSlot (frame+1),.pushSlot frame,.pushSlot (frame+2),.loopResult]
mutual
/-- The code of an expression; its loops take the slots from `n` on. -/
def Expression.code:Expression→Nat→List Instruction
 | .integer v,_=>[constant v]
 | .float x,_=>[.pushFloat x]
 | .text b,_=>[.pushText b]
 | .matcher m,_=>[.pushMatcher m]
 | .variable slot,_=>[.pushSlot slot]
 | .object name,_=>[.pushObject name]
 | .member o name,n=>o.code n++[.member name]
 | .item o i,n=>o.code n++i.code n++[.item]
 | .entry o k,n=>o.code n++k.code n++[.entry]
 | .call f args,n=>f.code n++codeOfArguments args n++[.call (lettersOf args)]
 | .value o,n=>o.code n++[.objectValue]
 | .rule i,_=>[.pushRule i]
 | .fileSize,_=>[.fileSize]
 | .entryPoint,_=>[.entryPoint]
 | .read kind e,n=>e.code n++[.read kind]
 | .count s,_=>s.code++[.count]
 | .countIn s lo hi,n=>lo.code n++hi.code n++s.code++[.countIn]
 | .offset s i,n=>i.code n++s.code++[.offset]
 | .length s i,n=>i.code n++s.code++[.length]
 | .found s,_=>s.code++[.found]
 | .foundAt s e,n=>e.code n++s.code++[.foundAt]
 | .foundIn s lo hi,n=>lo.code n++hi.code n++s.code++[.foundIn]
 | .negative float e,n=>e.code n++[.negative float]
 | .complement e,n=>e.code n++[.complement]
 | .arithmetic op k a b,n=>a.code n++b.code n++k.conversion++[.arithmetic op k.kind]
 | .comparison op k a b,n=>a.code n++b.code n++k.conversion++[.comparison op k.kind]
 | .bits op a b,n=>a.code n++b.code n++[.bits op]
 | .textOperation op a b,n=>a.code n++b.code n++[.textOperation op]
 | .textMatches a b,n=>a.code n++b.code n++[.textMatches]
 | .textTruth e,n=>e.code n++[.textTruth]
 | .not e,n=>e.code n++[.not]
 | .defined e,n=>e.code n++[.defined]
 | .and a b,n=>
  let right:=b.code n++[.and]
  a.code n++[.jumpIfFalse (right.length+1)]++right
 | .or a b,n=>
  let right:=b.code n++[.or]
  a.code n++[.jumpIfTrue (right.length+1)]++right
 | .quantifier q,_=>[quantifierCode q]
 | .someStrings q ss,n=>q.code n++stringPushes ss++[.someStrings]
 | .someRules q rs,n=>q.code n++rulePushes rs++[.someRules]
 | .percentOfStrings q ss,n=>q.code n++stringPushes ss++[.percentOfStrings]
 | .percentOfRules q rs,n=>q.code n++rulePushes rs++[.percentOfRules]
 | .someStringsIn q ss lo hi,n=>
  q.code n++stringPushes ss++lo.code n++hi.code n++[.someStringsIn]
 | .someStringsAt q ss e,n=>q.code n++stringPushes ss++e.code n++[.someStringsAt]
 | .loop q items body,n=>
  let inner:=n+loopSlots+items.width
  loopCode n items.width (q.code n) (items.code inner) (body.code inner)
def Iterator.code:Iterator→Nat→List Instruction
 | .array o,n=>o.code n++[.startIterator .array]
 | .dictionary o,n=>o.code n++[.startIterator .dictionary]
 | .range lo hi,n=>lo.code n++hi.code n++[.startIterator .range]
 | .integers es,n=>
  codeOfAll es n++[.pushInteger (ofNat es.length),.startIterator .integers]
 | .texts es,n=>codeOfAll es n++[.pushInteger (ofNat es.length),.startIterator .texts]
 | .strings ss,_=>
  stringPushes ss++[.pushInteger (ofNat ss.length),.startIterator .strings]
def codeOfAll:List Expression→Nat→List Instruction
 | [],_=>[]
 | e::es,n=>e.code n++codeOfAll es n
def codeOfArguments:List (Char×Expression)→Nat→List Instruction
 | [],_=>[]
 | (_,e)::es,n=>e.code n++codeOfArguments es n
end
inductive Section where
 | importing (name:String)
 | rule (index:Nat)(condition:Expression)
namespace Section
def code:Section→List Instruction
 | .importing name=>[.importModule name]
 | .rule index condition=>
  let body:=condition.code 0++[.closeRule index]
  .openRule index (body.length+1)::body
end Section
def program (sections:Array Section):Array Instruction:=
 (sections.foldl (fun code s=>code++s.code) #[]).push .halt
end PatternScan.Condition
