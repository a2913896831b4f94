import PatternScan.Rule.Typing
namespace PatternScan.Rule
open Bytes Limits Action Modifier
/-! Loops in conditions nest up to a limit. -/
open Condition (Expression Iterator)
def openLoop:Action Unit:=do
 let c ← get
 if c.depth==loopNesting then fail .loopNestingLimitExceeded
 set ({c with depth:=c.depth+1}.modifyLoop fun l=>{l with count:=0})
def declareVariable (name:String):Action Unit:=do
 let c ← get
 if c.currentLoop.count==2 then failWith .syntaxError "too many loop variables"
 if (c.loopVariable? name).isSome then failWith .duplicatedLoopIdentifier name
 set (c.modifyLoop fun l=>
  if l.count==0 then {l with first:={l.first with name:=some name},count:=1}
  else {l with second:={l.second with name:=some name},count:=2})
def setFirst (kind:Kind)(word:Int64)(object:Object):Action Unit:=
 modify (·.modifyLoop fun l=>
  {l with first:={l.first with kind:=kind,word:=word,object:=object}})
def setSecond (object:Object):Action Unit:=
 modify (·.modifyLoop fun l=>{l with second:={l.second with kind:=.object,object:=object}})
def overObject (e:Checked):Action Iterator:=do
 let count:=(← get).currentLoop.count
 match e.kind,e.object with
 | .object,.array p _=>
  if count != 1 then
   failWith .syntaxError ("iterator for \""++e.name
    ++ "\" yields a single item on each iteration, but the loop expects "++toString count)
  setFirst .object 0 p
  pure (.array e.code)
 | .object,.dictionary p _=>
  if count != 2 then
   failWith .syntaxError ("iterator for \""++e.name++"\" yields a key,value pair item on each iteration")
  setFirst .text textWord (.integer 0)
  setSecond p
  pure (.dictionary e.code)
 | _,_=>failWith .wrongType ("identifier \""++e.name++"\" is not iterable")
def overSet (kind:Kind)(i:Iterator):Action Iterator:=do
 let count:=(← get).currentLoop.count
 if count != 1 then
  failWith .syntaxError
   ("iterator yields one value on each iteration , but the loop expects "++toString count)
 setFirst kind undefinedInteger (.integer 0)
 pure i
def overStrings (strings:Array Nat):Action Iterator:=do
 let c ← get
 if c.stringSlot.isSome then fail .nestedForOfLoop
 let c:=c.modifyLoop fun l=>{l with count:=1}
 set {c with stringSlot:=some (c.frame+Condition.loopSlots)}
 pure (.strings strings.toList)
def closeLoop (quantity:Checked)(strings:Bool)(i:Iterator)(body:Checked):Action Checked:=do
 let c ← get
 let code:Expression:=.loop quantity.code i body.code
 let c:=if strings then {c with stringSlot:=none} else c
 let c:=c.modifyLoop LoopLevel.clean
 set {c with depth:=c.depth-1}
 pure (.truth code 0)
def leaveLoops:Action Unit:=do
 modify fun c=>
  { c with
    levels:=c.levels.mapIdx fun i l=>if i<c.depth then l.clean else l
    depth:=0 }
 throw .failed
open Condition (Expression Iterator)
inductive Value where
 | none
 | literal (l:Literal)
 | ruleFlags (hidden everywhere:Bool)
 | tags (names:Array String)
 | metas (entries:Array Meta)
 | modifier (m:Modifier)
 | expression (e:Checked)
 | arguments (codes:Array (Char×Expression))
 | range (lo hi:Checked)
 | iterator (strings:Bool)(i:Iterator)
 | set (kind:Kind)(i:Iterator)
 | members (kind:Kind)(codes:Array Expression)
 | strings (indices:Array Nat)
 | rules (indices:Array Nat)
namespace Value
def name:Value→String
 | .literal (.name s)=>s
 | _=>""
def integer:Value→Int64
 | .literal (.integer v)=>v
 | _=>0
def text:Value→Bytes
 | .literal (.text b)=>b
 | .literal (.regexp b _ _)=>b
 | _=>ByteArray.empty
def tagNames:Value→Array String
 | .tags names=>names
 | _=>#[]
def metaEntries:Value→Array Meta
 | .metas entries=>entries
 | _=>#[]
def modifiers:Value→Modifier
 | .modifier m=>m
 | _=>{}
def checked:Value→Checked
 | .expression e=>e
 | _=>default
def bounds:Value→Checked×Checked
 | .range lo hi=>(lo,hi)
 | _=>default
def indices:Value→Array Nat
 | .strings is | .rules is=>is
 | _=>#[]
end Value
def xorModifier (lo hi:Int64):Modifier:=
 {flags:={StringFlags.none with xor:=true},keys:=(lo.toUInt64.toUInt8,hi.toUInt64.toUInt8)}
def xorKey (key:Int64):Action Modifier:=do
 if key<0||255<key then failWith .invalidModifier "invalid xor range"
 pure (xorModifier key key)
def xorRange (lo hi:Int64):Action Modifier:=do
 if hi<lo then failWith .invalidModifier "xor lower bound exceeds upper bound"
 if 255<hi then
  failWith .invalidModifier "upper bound for xor range exceeded (max: 255)"
 if lo<0 then failWith .invalidModifier "lower bound for xor range exceeded (min: 0)"
 pure (xorModifier lo hi)
def base64Modifier (wide:Bool)(alphabet:Option Bytes):Action Modifier:=do
 let alphabet:=alphabet.getD Base64.standard
 if alphabet.size != 64 then
  failWith .invalidModifier "length of base64 alphabet must be 64"
 pure
  { flags:={StringFlags.none with base64:=!wide,base64Wide:=wide}
    alphabet:=some alphabet }
def addPlainModifier (m new:Modifier):Action Modifier:=do
 if overlap m.flags new.flags then fail .duplicatedModifier
 pure {m with flags:=union m.flags new.flags}
def addTextModifier (m new:Modifier):Action Modifier:=do
 let m:=if new.flags.xor then {m with keys:=new.keys} else m
 let m ←
  match m.alphabet,new.alphabet with
  | some a,some b=>
   if a != b then failWith .invalidModifier "can not specify multiple alphabets"
   else pure m
  | none,some b=>pure {m with alphabet:=some b}
  | _,none=>pure m
 addPlainModifier m new
def declare (name:String)(m:Modifier)(text:Bytes):Action Value:=do
 declareString name m text
 modify fun c=>{c with line:=0}
 pure .none
def someStrings (q:Checked)(set:Array Nat):Action Checked:=do
 checkQuantity q set.size
 pure (.truth (.someStrings q.code set.toList) (requiredBy q))
def someStringsIn (q:Checked)(set:Array Nat)(lo hi:Checked):Action Checked:=do
 checkQuantity q set.size
 needAllMatches set
 pure (.truth (.someStringsIn q.code set.toList lo.code hi.code) (requiredBy q))
def someStringsAt (q:Checked)(set:Array Nat)(place:Checked):Action Checked:=do
 if place.kind != .integer then
  failWith .invalidValue "at expression must be an integer"
 checkQuantity q set.size
 if (q.kind==.integer&&1<q.word)
  || (q.kind==.quantifier&&q.word==quantifierWord .all&&1<set.size) then
  warn "multiple strings at an offset is usually false."
 needAllMatches set
 pure (.truth (.someStringsAt q.code set.toList place.code) (requiredBy q))
def truthOf (e:Checked):Action Checked:=do
 match e.kind with
 | .text=>
  match e.literal with
  | some b=>
   warn ("using literal string \""++latin1 (untilNul b)++"\" in a boolean operation.")
  | none=>pure ()
  pure (.truth (.textTruth e.code) 0)
 | .boolean=>pure e
 | _=>pure (.truth e.code 0)
def addMember (before:Option (Kind×Array Expression))(e:Checked):Action Value:=do
 match before with
 | none=>
  if e.kind != .integer&&e.kind != .text then
   failWith .wrongType "wrong type for enumeration item"
  pure (.members e.kind #[e.code])
 | some (kind,codes)=>
  if e.kind != kind then
   failWith .wrongType "enumerations must be all the same type"
  pure (.members kind (codes.push e.code))
def negativeOf (e:Checked):Action Checked:=do
 require e [.integer,.float] "-"
 if e.kind==.integer then
  pure
   { code:=.negative false e.code
     kind:=.integer
     word:=if e.known then -e.word else undefinedInteger }
 else pure {code:=.negative true e.code,kind:=.float}
def complementOf (e:Checked):Action Checked:=do
 require e [.integer] "~"
 pure
  { code:=.complement e.code
    kind:=.integer
    word:=if e.known then ~~~e.word else undefinedInteger }
def TextOperator.sign:TextOperator→String
 | .contains=>"contains"
 | .icontains=>"icontains"
 | .startsWith=>"startswith"
 | .istartsWith=>"istartswith"
 | .endsWith=>"endswith"
 | .iendsWith=>"iendswith"
 | .iequals=>"iequals"
def textOperationOf (a b:Checked)(kind:Kind)(op:String)(code:Expression):Action Checked:=do
 require a [.text] op
 require b [kind] op
 pure (.truth code 0)
def ruleNamed (name:String):Action (Array Nat):=do
 match (← get).ruleNumber? name with
 | some i=>pure #[i]
 | none=>failWith .undefinedIdentifier name
def addArgument (before:Array (Char×Expression))(e:Checked):Action Value:=do
 let letter ← argumentLetter e before.size
 pure (.arguments (before.push (letter,e.code)))
def performDeclaration (form:Form)(part:Nat→Value)(below:List Value):Action Value:=do
 match form with
 | .leaveInclude=>
  modify (·.popFile)
  pure .none
 | .importModule=>
  importModule (part 1).text
  pure .none
 | .openRule=>
  match below with
  | name::_::.ruleFlags hidden everywhere::_=>openRule hidden everywhere name.name
  | _=>pure ()
  pure .none
 | .closeRule=>
  let condition:=(part 9).checked
  closeRule (part 2).name (part 4).tagNames.toList (part 6).metaEntries.toList condition.required condition.code
  pure .none
 | .metaSection=>pure (part 2)
 | .stringSection=>
  closeStrings
  pure .none
 | .noRuleFlags=>pure (.ruleFlags false false)
 | .addRuleFlag=>
  match part 0,part 1 with
  | .ruleFlags h e,.ruleFlags h' e'=>pure (.ruleFlags (h||h') (e||e'))
  | _,_=>pure .none
 | .ruleFlag hidden everywhere=>pure (.ruleFlags hidden everywhere)
 | .noTags=>pure (.tags #[])
 | .firstTag=>pure (.tags #[(part 0).name])
 | .nextTag=>
  let names:=(part 0).tagNames
  let name:=(part 1).name
  if names.contains name then failWith .duplicatedTagIdentifier name
  pure (.tags (names.push name))
 | .nextMeta=>pure (.metas ((part 0).metaEntries++(part 1).metaEntries))
 | .metaText=>
  pure (.metas #[⟨(part 0).name,.text (latin1 (untilNul (part 2).text))⟩])
 | .metaInteger=>pure (.metas #[⟨(part 0).name,.integer (part 2).integer⟩])
 | .metaNegative=>pure (.metas #[⟨(part 0).name,.integer (-(part 3).integer)⟩])
 | .metaBoolean value=>pure (.metas #[⟨(part 0).name,.boolean value⟩])
 | .noteLine=>
  modify fun c=>{c with line:=c.lexer.line}
  pure .none
 | .textString=>declare (part 0).name (part 4).modifiers (part 3).text
 | .regexpString=>
  match part 3 with
  | .literal (.regexp b noCase dotAll)=>
   let m:=(part 4).modifiers
   let flags:={ m.flags with
    regexp:=true
    noCase:=m.flags.noCase||noCase
    dotAll:=m.flags.dotAll||dotAll }
   declare (part 0).name {m with flags:=flags} b
  | _=>pure .none
 | .hexString=>
  let m:=(part 4).modifiers
  declare (part 0).name {m with flags:={m.flags with hexadecimal:=true}} (part 3).text
 | .noModifiers=>pure (.modifier {})
 | .addTextModifier=>.modifier <$> addTextModifier (part 0).modifiers (part 1).modifiers
 | .addPlainModifier=>.modifier <$> addPlainModifier (part 0).modifiers (part 1).modifiers
 | .modifier flags=>pure (.modifier {flags:=flags})
 | .xorAll=>pure (.modifier (xorModifier 0 255))
 | .xorKey=>.modifier <$> xorKey (part 2).integer
 | .xorRange=>.modifier <$> xorRange (part 2).integer (part 4).integer
 | .base64 wide custom=>
  .modifier <$> base64Modifier wide (if custom then some (part 2).text else none)
 | _=>pure .none
def performSearch (form:Form)(part:Nat→Value):Action Value:=do
 match form with
 | .found=>do
  let s ← useString (part 0).name .presence
  pure (.expression (.truth (.found s) 1))
 | .foundAt=>do
  let place:=(part 2).checked
  require place [.integer] "at"
  let s ← useString (part 0).name (.place place.word)
  pure (.expression (.truth (.foundAt s place.code) 1))
 | .foundIn=>do
  let (lo,hi):=(part 2).bounds
  let s ← useString (part 0).name .other
  pure (.expression (.truth (.foundIn s lo.code hi.code) 1))
 | .someStrings=>.expression <$> someStrings (part 0).checked (part 2).indices
 | .someRules=>do
  checkQuantity (part 0).checked (part 2).indices.size
  pure (.expression (.truth (.someRules (part 0).checked.code (part 2).indices.toList) 0))
 | .percentOfStrings=>do
  let e:=(part 0).checked
  checkPercentage e
  -- A percentage leaves the type of its number, so that no string counts as required.
  pure (.expression { e with
     code:=.percentOfStrings e.code (part 3).indices.toList
     required:=if e.known then 1 else 0 })
 | .percentOfRules=>do
  let e:=(part 0).checked
  checkPercentage e
  pure (.expression {e with code:=.percentOfRules e.code (part 3).indices.toList})
 | .someStringsIn=>do
  let (lo,hi):=(part 4).bounds
  .expression <$> someStringsIn (part 0).checked (part 2).indices lo hi
 | .someStringsAt=>
  .expression <$> someStringsAt (part 0).checked (part 2).indices (part 4).checked
 | .countIn=>do
  let (lo,hi):=(part 2).bounds
  let s ← useString (part 0).name .other
  pure (.expression (.number (.countIn s lo.code hi.code)))
 | .count=>do
  let s ← useString (part 0).name .other
  pure (.expression (.number (.count s)))
 | .offsetAt=>do
  let s ← useString (part 0).name .other
  pure (.expression (.number (.offset s (part 2).checked.code)))
 | .offset=>do
  let s ← useString (part 0).name .other
  pure (.expression (.number (.offset s (.integer 1))))
 | .lengthAt=>do
  let s ← useString (part 0).name .other
  pure (.expression (.number (.length s (part 2).checked.code)))
 | .length=>do
  let s ← useString (part 0).name .other
  pure (.expression (.number (.length s (.integer 1))))
 | .allStrings=>.strings <$> stringsNamed "$*"
 | .nextStrings=>pure (.strings ((part 0).indices++(part 2).indices))
 | .stringItem=>.strings <$> stringsNamed (part 0).name
 | .nextRules=>pure (.rules ((part 0).indices++(part 2).indices))
 | .ruleItem=>.rules <$> ruleNamed (part 0).name
 | .rulesWithPrefix=>.rules <$> rulesNamed (part 0).name
 | _=>pure .none
def performLoop (form:Form)(part:Nat→Value):Action Value:=do
 match form with
 | .loopFailed=>
  leaveLoops
  pure .none
 | .openLoop=>
  openLoop
  pure .none
 | .closeLoop=>
  match part 3 with
  | .iterator strings i=>.expression <$> closeLoop (part 1).checked strings i (part 7).checked
  | _=>pure .none
 | .overIterator=>pure (part 2)
 | .overStrings=>.iterator true <$> overStrings (part 1).indices
 | .firstVariable=>
  declareVariable (part 0).name
  pure .none
 | .nextVariable=>
  declareVariable (part 2).name
  pure .none
 | .objectIterator=>.iterator false <$> overObject (part 0).checked
 | .setIterator=>
  match part 0 with
  | .set kind i=>.iterator false <$> overSet kind i
  | _=>pure .none
 | .enumerated=>
  match part 1 with
  | .members .text codes=>pure (.set .text (.texts codes.toList))
  | .members kind codes=>pure (.set kind (.integers codes.toList))
  | _=>pure .none
 | .ranged=>
  let (lo,hi):=(part 0).bounds
  pure (.set .integer (.range lo.code hi.code))
 | .range=>do
  checkRange (part 1).checked (part 3).checked
  pure (.range (part 1).checked (part 3).checked)
 | .firstMember=>addMember none (part 0).checked
 | .nextMember=>
  match part 0 with
  | .members kind codes=>addMember (some (kind,codes)) (part 2).checked
  | _=>pure .none
 | .quantity=>.expression <$> quantityOf (part 0).checked
 | .quantifier q=>
  pure (.expression {code:=.quantifier q,kind:=.quantifier,word:=quantifierWord q})
 | _=>pure .none
def performValue (form:Form)(part:Nat→Value):Action Value:=do
 match form with
 | .name=>.expression <$> resolve (part 0).name
 | .member=>.expression <$> memberOf (part 0).checked (part 2).name
 | .item=>.expression <$> itemOf (part 0).checked (part 2).checked
 | .call=>
  match part 2 with
  | .arguments codes=>.expression <$> callOf (part 0).checked codes.toList
  | _=>pure .none
 | .noArguments=>pure (.arguments #[])
 | .firstArgument=>addArgument #[] (part 0).checked
 | .nextArgument=>
  match part 0 with
  | .arguments codes=>addArgument codes (part 2).checked
  | _=>pure .none
 | .regexp=>
  match part 0 with
  | .literal (.regexp b noCase dotAll)=>.expression <$> regexpLiteral b noCase dotAll
  | _=>pure .none
 | .boolean=>.expression <$> truthOf (part 0).checked
 | .truth value=>pure (.expression (.truth (.integer (if value then 1 else 0)) 0))
 | .textMatches=>
  let a:=(part 0).checked
  let b:=(part 2).checked
  .expression <$> textOperationOf a b .regexp "matches" (.textMatches a.code b.code)
 | .textOperation op=>
  let a:=(part 0).checked
  let b:=(part 2).checked
  .expression <$> textOperationOf a b .text op.sign (.textOperation op a.code b.code)
 | .negation=>pure (.expression (.truth (.not (part 1).checked.code) 0))
 | .isDefined=>pure (.expression (.truth (.defined (part 1).checked.code) 0))
 | .conjunction=>
  let a:=(part 0).checked
  let b:=(part 3).checked
  pure (.expression (.truth (.and a.code b.code) (a.required+b.required)))
 | .disjunction=>
  let a:=(part 0).checked
  let b:=(part 3).checked
  pure (.expression (.truth (.or a.code b.code) (min a.required b.required)))
 | .comparison op=>.expression <$> comparisonOf op (part 0).checked (part 2).checked
 | .fileSize=>pure (.expression (.number .fileSize))
 | .entryPoint=>
  warn ("using deprecated \"entrypoint\" keyword. Use the \"entry_point\" function from PE "
   ++ "module instead.")
  pure (.expression (.number .entryPoint))
 | .readNumber=>
  require (part 2).checked [.integer] "intXXXX or uintXXXX"
  match part 0 with
  | .literal (.reader kind)=>pure (.expression (.number (.read kind (part 2).checked.code)))
  | _=>pure .none
 | .integer=>
  let v:=(part 0).integer
  pure (.expression {code:=.integer v,kind:=.integer,word:=v})
 | .float=>
  match part 0 with
  | .literal (.float x)=>pure (.expression {code:=.float x,kind:=.float})
  | _=>pure .none
 | .text=>.expression <$> textLiteral (part 0).text
 | .objectValue=>.expression <$> valueOf (part 0).checked
 | .negative=>.expression <$> negativeOf (part 1).checked
 | .arithmetic op=>.expression <$> arithmeticOf op (part 0).checked (part 2).checked
 | .bits op=>.expression <$> bitsOf op (part 0).checked (part 2).checked
 | .complement=>.expression <$> complementOf (part 1).checked
 | _=>pure .none
inductive FormGroup where
 | declaration | search | loop | value
def Form.group:Form→FormGroup
 | .leaveInclude | .importModule | .openRule | .closeRule | .metaSection | .stringSection
 | .noRuleFlags | .addRuleFlag | .ruleFlag _ _ | .noTags | .firstTag | .nextTag | .nextMeta
 | .metaText | .metaInteger | .metaNegative | .metaBoolean _ | .noteLine | .textString
 | .regexpString | .hexString | .noModifiers | .addTextModifier | .addPlainModifier | .modifier _
 | .xorAll | .xorKey | .xorRange | .base64 _ _=>.declaration
 | .found | .foundAt | .foundIn | .someStrings | .someRules | .percentOfStrings | .percentOfRules
 | .someStringsIn | .someStringsAt | .countIn | .count | .offsetAt | .offset | .lengthAt | .length
 | .allStrings | .nextStrings | .stringItem | .nextRules | .ruleItem | .rulesWithPrefix=>.search
 | .loopFailed | .openLoop | .closeLoop | .overIterator | .overStrings | .firstVariable
 | .nextVariable | .objectIterator | .setIterator | .enumerated | .ranged | .range | .firstMember
 | .nextMember | .quantity | .quantifier _=>.loop
 | _=>.value
def perform (form:Form)(parts below:List Value):Action Value:=
 let part (n:Nat):Value:=parts.getD n .none
 match form with
 | .part n=>pure (part n)
 | .blank=>pure .none
 | form=>
  match form.group with
  | .declaration=>performDeclaration form part below
  | .search=>performSearch form part
  | .loop=>performLoop form part
  | .value=>performValue form part
end PatternScan.Rule
