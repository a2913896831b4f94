import PatternScan.Object.Basic
import PatternScan.Rule.Productions
namespace PatternScan.Condition
open Rule (NumberReader TextOperator Comparison Arithmetic BitOperator Quantifier)
structure Matcher where
 address:Nat
 noCase:Bool
 dotAll:Bool
 deriving DecidableEq
inductive StringOperand where
 | string (index:Nat)
 | variable (slot:Nat)
 deriving DecidableEq

/-- What the operands of an operator are; of an integer and a floating point number, the integer is
converted. -/
inductive Operands where
 | integers | floats | integerAndFloat | floatAndInteger | texts
 deriving DecidableEq
mutual
inductive Expression where
 | integer (value:Int64)
 | float (value:Float)
 | text (bytes:Bytes)
 | matcher (m:Matcher)
 | variable (slot:Nat)
 | object (name:String)
 | member (of:Expression)(name:String)
 | item (of index:Expression)
 | entry (of key:Expression)
 | call (function:Expression)(arguments:List (Char×Expression))
 | value (of:Expression)
 | rule (index:Nat)
 | fileSize | entryPoint
 | read (kind:NumberReader)(offset:Expression)
 | count (s:StringOperand)
 | countIn (s:StringOperand)(lo hi:Expression)
 | offset (s:StringOperand)(index:Expression)
 | length (s:StringOperand)(index:Expression)
 | found (s:StringOperand)
 | foundAt (s:StringOperand)(offset:Expression)
 | foundIn (s:StringOperand)(lo hi:Expression)
 | negative (float:Bool)(e:Expression)
 | complement (e:Expression)
 | arithmetic (op:Arithmetic)(operands:Operands)(a b:Expression)
 | comparison (op:Comparison)(operands:Operands)(a b:Expression)
 | bits (op:BitOperator)(a b:Expression)
 | textOperation (op:TextOperator)(a b:Expression)
 | textMatches (a b:Expression)
 | textTruth (e:Expression)
 | not (e:Expression)
 | defined (e:Expression)
 | and (a b:Expression)
 | or (a b:Expression)
 | quantifier (q:Quantifier)
 | someStrings (quantity:Expression)(strings:List Nat)
 | someRules (quantity:Expression)(rules:List Nat)
 | percentOfStrings (percentage:Expression)(strings:List Nat)
 | percentOfRules (percentage:Expression)(rules:List Nat)
 | someStringsIn (quantity:Expression)(strings:List Nat)(lo hi:Expression)
 | someStringsAt (quantity:Expression)(strings:List Nat)(offset:Expression)
 | loop (quantity:Expression)(items:Iterator)(body:Expression)
inductive Iterator where
 | array (of:Expression)
 | dictionary (of:Expression)
 | range (lo hi:Expression)
 | integers (members:List Expression)
 | texts (members:List Expression)
 | strings (members:List Nat)
end
instance:Inhabited Expression:=⟨.integer 0⟩
def lettersOf (arguments:List (Char×Expression)):String:=String.ofList (arguments.map (·.1))
def Iterator.width:Iterator→Nat
 | .dictionary _=>2
 | _=>1

/-! Every value on the stack is one word to the instructions that only look at its bits. -/
mutual
inductive Cell where
 | integer (value:Int64)
 | float (value:Float)
 | text (bytes:Bytes)
 | object (o:Object)
 | matcher (m:Matcher)
 | string (index:Nat)
 | iteration (i:Iteration)
inductive Iteration where
 | range (next last:Int64)
 | items (rest:List Cell)
 | entries (rest:List (Cell×Cell))
end
instance:Inhabited Cell:=⟨.integer 0⟩
namespace Cell
def undefined:Cell:=.integer undefinedInteger
def ofBool (b:Bool):Cell:=.integer (if b then 1 else 0)
def word:Cell→Int64
 | .integer v=>v
 | .float x=>x.toBits.toInt64
 | _=>0x600000000000
def isUndefined (c:Cell):Bool:=c.word==undefinedInteger
def isTrue (c:Cell):Bool:=!c.isUndefined&&c.word != 0
def toFloat:Cell→Float
 | .float x=>x
 | c=>Float.ofBits c.word.toUInt64
end Cell
namespace Iteration
def next:Iteration→Option (List Cell×Iteration)
 | .range next last=>
  if next != undefinedInteger&&last != undefinedInteger&&next≤last then
   some ([.integer next],.range (next+1) last)
  else none
 | .items []=>none
 | .items (c::rest)=>some ([c],.items rest)
 | .entries []=>none
 | .entries ((key,value)::rest)=>some ([value,key],.entries rest)
def width:Iteration→Nat
 | .entries _=>2
 | _=>1
def cellOf:Option Object→Cell
 | some o=>.object o
 | none=>Cell.undefined
def ofArray:Cell→Iteration
 | .object (.array _ os)=>.items (os.toList.map cellOf)
 | _=>.items []
def ofDictionary:Cell→Iteration
 | .object (.dictionary _ os)=>.entries (os.toList.map fun (k,o)=>(.text k,.object o))
 | _=>.entries []
end Iteration
end PatternScan.Condition
