import PatternScan.Number.Fixed
import PatternScan.Rule.Declaration
namespace PatternScan.Rule
open Action
open Condition (Expression Operands StringOperand)
structure Checked where
 code:Expression
 kind:Kind
 word:Int64:=0
 object:Object:=.integer 0
 name:String:=""
 required:Nat:=0
 literal:Option Bytes:=none
deriving Inhabited
namespace Checked
def truth (code:Expression)(required:Nat):Checked:=
 {code:=code,kind:=.boolean,required:=required}
def number (code:Expression):Checked:=
 {code:=code,kind:=.integer,word:=undefinedInteger}
def known (e:Checked):Bool:=e.word != undefinedInteger
end Checked
/-- The word that a text without a known value counts as where integers are compared. -/
def textWord:Int64:=-1
def objectWord:Int64:=0x600000000000
def require (e:Checked)(kinds:List Kind)(op:String):Action Unit:=do
 if kinds.contains e.kind then pure ()
 else
  let wrong (name:String):Action Unit:=
   modify (·.setDetail ("wrong type \""++name++"\" for "++op++" operator"))
  match e.kind with
  | .integer=>wrong "integer"
  | .float=>wrong "float"
  | .text=>wrong "string"
  | .boolean=>wrong "boolean"
  | _=>pure ()
  fail .wrongType
inductive StringUse where
 | presence
 | place (offset:Int64)
 | other
deriving DecidableEq
def StringUse.note (use:StringUse)(named:Bool)(s:RuleString):RuleString:=
 let s:=
  match use with
  | .presence=>s
  | _=>{s with flags:={s.flags with singleMatch:=false}}
 match use with
 | .place offset=>
  let fixed:=if s.fixedOffset==undefinedInteger then offset else s.fixedOffset
  let s:={s with fixedOffset:=fixed}
  if fixed != offset||(named&&fixed==undefinedInteger) then
   {s with flags:={s.flags with fixedOffset:=false}}
  else s
 | _=>{s with flags:={s.flags with fixedOffset:=false}}
def useString (name:String)(use:StringUse):Action StringOperand:=do
 let c ← get
 if name == "$" then
  match c.stringSlot with
  | none=>fail .misplacedAnonymousString
  | some slot=>
   set (c.ruleStrings.foldl (fun c i=>c.modifyString i (use.note false)) c)
   pure (.variable slot)
 else
  match c.ruleStrings.find? fun i=>(c.string i).link.isNone&&(c.string i).name==name with
  | none=>failWith .undefinedString name
  | some i=>
   set (c.modifyString i fun s=>
    let s:=use.note true s
    {s with flags:={s.flags with referenced:=true}})
   pure (.string i)
def nameMatches:List Char→List Char→Bool
 | [],[]=>true
 | '*' :: _,_=>true
 | p::ps,c::cs=>p==c&&nameMatches ps cs
 | _,_=>false
def stringsNamed (name:String):Action (Array Nat):=do
 let c ← get
 let found:=c.ruleStrings.filter fun i=>
  (c.string i).link.isNone&&nameMatches name.toList (c.string i).name.toList
 set (found.foldl (fun c i=>c.modifyString i fun s=>
  {s with flags:={s.flags with referenced:=true,fixedOffset:=false}}) c)
 if found.isEmpty then failWith .undefinedString name
 pure found.toArray
def needAllMatches (strings:Array Nat):Action Unit:=
 modify fun c=>strings.foldl (fun c i=>c.modifyString i fun s=>
  {s with flags:={s.flags with singleMatch:=false}}) c

/-- For every rule so far whose name starts so, the rule of that name in the current namespace. -/
def rulesNamed (start:String):Action (Array Nat):=do
 modify fun c=>{c with wildcards:=(c.spaceName,start)::c.wildcards}
 let c ← get
 let last:=c.rule.getD 0
 let found:=(c.rules.toList.take (last+1)).filterMap fun r=>
  if startsWith r.name start then c.ruleNumber? r.name else none
 if found.isEmpty then failWith .undefinedIdentifier start
 pure found.toArray
def resolve (name:String):Action Checked:=do
 let c ← get
 match c.loopVariable? name with
 | some (slot,v)=>
  pure {code:=.variable slot,kind:=v.kind,word:=v.word,object:=v.object,name:=name}
 | none=>
  match c.globals[name]? <|> c.modules[(c.spaceName,name)]? with
  | some o=>pure {code:=.object name,kind:=.object,object:=o,name:=name}
  | none=>
   match c.ruleNumber? name with
   | some i=>
    pure {code:=.rule i,kind:=.boolean,word:=undefinedInteger,name:=name}
   | none=>failWith .undefinedIdentifier name
def memberOf (e:Checked)(name:String):Action Checked:=do
 match e.kind,e.object with
 | .object,.struct members=>
  match members.lookup name with
  | some o=>pure {code:=.member e.code name,kind:=.object,object:=o,name:=name}
  | none=>failWith .invalidFieldName name
 | _,_=>failWith .notAStructure e.name
def itemOf (e i:Checked):Action Checked:=do
 match e.kind,e.object with
 | .object,.array p _=>
  if i.kind != .integer then failWith .wrongType "array indexes must be of integer type"
  pure {code:=.item e.code i.code,kind:=.object,object:=p,name:=e.name}
 | .object,.dictionary p _=>
  if i.kind != .text then failWith .wrongType "dictionary keys must be of string type"
  pure {code:=.entry e.code i.code,kind:=.object,object:=p,name:=e.name}
 | _,_=>failWith .notIndexable e.name
def callOf (e:Checked)(arguments:List (Char×Expression)):Action Checked:=do
 let letters:=Condition.lettersOf (arguments.take (Limits.functionArguments-1))
 match e.kind,e.object with
 | .object,.function overloads result=>
  if overloads.any (·.arguments==letters) then
   pure
    { code:=.call e.code arguments
      kind:=.object
      object:=result
      name:=letters }
  else failWith .wrongArguments e.name
 | _,_=>failWith .notAFunction e.name
def valueOf (e:Checked):Action Checked:=do
 if e.kind != .object then pure e
 else
  let code:Expression:=.value e.code
  match e.object with
  | .integer v=>pure {e with code:=code,kind:=.integer,word:=v}
  | .float _=>pure {e with code:=code,kind:=.float,word:=objectWord}
  | .text _=>pure {e with code:=code,kind:=.text,word:=textWord,literal:=none}
  | _=>failWith .wrongType ("wrong usage of identifier \""++e.name++"\"")
def argumentLetter (e:Checked)(n:Nat):Action Char:=do
 match e.kind with
 | .integer=>pure 'i'
 | .float=>pure 'f'
 | .boolean=>pure 'b'
 | .text=>pure 's'
 | .regexp=>pure 'r'
 | .unknown=>
  failWith .wrongType ("unknown type for argument "++toString (n+1)++" in function call")
 | _=>fail .internalFatalError

/-- Where integers are compared a text counts as a word that grows with the order in which texts were first used. -/
def textLiteral (b:Bytes):Action Checked:=do
 let c ← get
 let index ←
  match c.literals.findIdx? (· == b) with
  | some i=>pure i
  | none=>do
   set {c with literals:=c.literals.push b}
   pure c.literals.size
 pure
  { code:=.text b
    kind:=.text
    word:=Int64.ofNat ((index+1)*0x100000000+5)
    literal:=some b }
def regexpLiteral (b:Bytes)(noCase dotAll:Bool):Action Checked:=do
 let c ← get
 match Regex.read b c.setting.strict with
 | .error e=>failWith .invalidRegularExpression e.message
 | .ok r=>
  let address:=c.regexCode.size
  let (code,_) ← Action.ofExcept (r.pattern.emit false c.regexCode r.pattern.noEntries)
  set {c with regexCode:=code}
  if r.unknownEscape then warn "unknown escape sequence"
  pure {code:=.matcher ⟨address,noCase,dotAll⟩,kind:=.regexp}
def operandsOf (a b:Checked)(op:String)(texts:Bool):Action Operands:=do
 match a.kind,b.kind with
 | .integer,.integer=>pure .integers
 | .float,.float=>pure .floats
 | .integer,.float=>pure .integerAndFloat
 | .float,.integer=>pure .floatAndInteger
 | .text,.text=>
  if texts then pure .texts
  else failWith .wrongType ("strings don't support \""++op++"\" operation")
 | _,_=>failWith .wrongType "type mismatch"
namespace Arithmetic
def sign:Arithmetic→String
 | .add=>"+"
 | .subtract=>"-"
 | .multiply=>"*"
 | .divide=>"\\"
def apply (op:Arithmetic)(a b:Int64):Int64:=
 match op with
 | .add=>a+b
 | .subtract=>a-b
 | .multiply=>a*b
 | .divide=>a/b
def magnitude (a:Int64):Int64:=if a<0 then -a else a
def overflows (op:Arithmetic)(a b:Int64):Bool:=
 let outside (n:Int):Bool:=n < -0x8000000000000000||0x8000000000000000≤n
 match op with
 | .add=>outside (a.toInt+b.toInt)
 | .subtract=>outside (a.toInt-b.toInt)
 | .multiply=>b != 0&&Int64.ofInt 0x7fffffffffffffff/magnitude b < magnitude a
 | .divide=>false
end Arithmetic
def fold (f:Int64→Int64→Int64)(a b:Checked):Int64:=
 if a.known&&b.known then f a.word b.word else undefinedInteger
def arithmeticOf (op:Arithmetic)(a b:Checked):Action Checked:=do
 let operands ← operandsOf a b op.sign false
 let code:Expression:=.arithmetic op operands a.code b.code
 if operands==.integers then
  if op==.divide&&b.word==0 then fail .divisionByZero
  if a.known&&b.known&&op.overflows a.word b.word then
   failWith .integerOverflow (toString a.word.toInt++" "++op.sign++" "++toString b.word.toInt)
  pure {a with code:=code,kind:=.integer,word:=fold op.apply a b}
 else pure {a with code:=code,kind:=.float}
namespace Comparison
def sign:Comparison→String
 | .equal=>"=="
 | .notEqual=>"!="
 | .less=>"<"
 | .lessEqual=>"<="
 | .greater=>">"
 | .greaterEqual=>">="
end Comparison
def comparisonOf (op:Comparison)(a b:Checked):Action Checked:=do
 let operands ← operandsOf a b op.sign true
 pure (.truth (.comparison op operands a.code b.code) 0)
namespace BitOperator
def sign:BitOperator→String
 | .remainder=>"%"
 | .exclusive | .conjunction=>"^"
 | .disjunction=>"|"
 | .shiftLeft=>"<<"
 | .shiftRight=>">>"
end BitOperator
/-- An operator on integers alone.  The value of a shift to the right is folded like one to the
left. -/
def bitsOf (op:BitOperator)(a b:Checked):Action Checked:=do
 require a [.integer] op.sign
 require b [.integer] op.sign
 let result (word:Int64):Checked:=
  {a with code:=.bits op a.code b.code,kind:=.integer,word:=word}
 match op with
 | .remainder=>
  if b.word==0 then fail .divisionByZero
  pure (result (fold (·%·) a b))
 | .exclusive=>pure (result (fold (· ^^^ ·) a b))
 | .conjunction=>pure (result (fold (· &&& ·) a b))
 | .disjunction=>pure (result (fold (· ||| ·) a b))
 | .shiftLeft | .shiftRight=>
  if b.known&&b.word<0 then fail .invalidOperand
  else if b.known&&64≤b.word then pure (result 0)
  else pure (result (fold (· <<< ·) a b))
def quantityOf (e:Checked):Action Checked:=do
 match e.kind with
 | .integer=>
  if e.known then
   if e.word==0 then warn "consider using \"none\" keyword, it is less ambiguous."
   if e.word<0 then failWith .invalidValue (toString e.word.toInt)
 | .float=>failWith .invalidValue (Number.hexadecimal e.word.toUInt64)
 | .text=>
  match e.literal with
  | some b=>failWith .invalidValue (Bytes.latin1 (Bytes.untilNul b))
  | none=>failWith .invalidValue "string in for_expression is invalid"
 | .regexp=>failWith .invalidValue "regexp in for_expression is invalid"
 | _=>pure ()
 pure e
def checkQuantity (q:Checked)(members:Nat):Action Unit:=do
 if q.kind==.integer&&(members:Int)<q.word.toInt then
  warn ("expression always false - requesting "++toString q.word.toInt++" of "++toString members++".")
def quantifierWord:Quantifier→Int64
 | .all=>1
 | .any=>2
 | .none=>3
def requiredBy (q:Checked):Nat:=
 if (q.kind==.integer&&0<q.word)
  || (q.kind==.quantifier&&(q.word==quantifierWord .all||q.word==quantifierWord .any))
 then 1 else 0
def checkPercentage (e:Checked):Action Unit:=do
 require e [.integer] "%"
 if e.known&&(e.word<1||100<e.word) then
  failWith .invalidPercentage "percentage must be between 1 and 100 (inclusive)"
def checkRange (lo hi:Checked):Action Unit:=do
 let wrong:=if lo.kind != .integer then some "wrong type for range's lower bound" else none
 let wrong:=if hi.kind != .integer then some "wrong type for range's upper bound" else wrong
 if lo.known&&hi.known&&hi.word<lo.word then
  failWith .invalidValue "range lower bound must be less than upper bound"
 else if lo.known&&hi.known&&lo.word<0 then
  failWith .invalidValue "range lower bound can not be negative"
 else
  match wrong with
  | some detail=>failWith .wrongType detail
  | none=>pure ()
end PatternScan.Rule
