import PatternScan.Regex.Machine
import PatternScan.Scan.Findings
namespace PatternScan.Condition
open Int64 Bytes Scan Overload
open Rule (NumberReader TextOperator Comparison Arithmetic BitOperator)
structure World (S:Type) where
 object? : String→S→Option Object
 load:String→S→ResultCode×S
 call:Builtin→List Cell→S→Except ResultCode Object×S
 read:NumberReader→Int64→S→Int64×S
structure Environment (S:Type) where
 set:RuleSet
 findings:Findings
 world:World S
 fileSize:Int64
 entryPoint:Int64
 capacity:Nat
def slotCount:Nat:=Limits.loopNesting*(loopSlots+2)
structure State (S:Type) where
 ip:Nat:=0
 stack:Array Cell:=#[]
 slots:Array Cell:=Array.replicate slotCount (.integer 0)
 matched:Array Bool
 unsatisfied:Array Bool
 world:S
inductive Outcome (S:Type) where
 | running (s:State S)
 | halted (s:State S)
 | failed (code:ResultCode)(s:State S)
 | stuck (s:State S)
namespace State
variable {S:Type}
def push (e:Environment S)(c:Cell)(s:State S):Outcome S:=
 if s.stack.size<e.capacity then .running {s with stack:=s.stack.push c}
 else .failed .execStackOverflow s
def pop (s:State S)(next:Cell→State S→Outcome S):Outcome S:=
 match s.stack.back? with
 | none=>.stuck s
 | some c=>next c {s with stack:=s.stack.pop}
def popMembers (stack:Array Cell):Nat→List Cell→Option (List Cell×Array Cell)
 | 0,_=>none
 | n+1,members=>
  match stack.back? with
  | none=>none
  | some c=>
   if c.isUndefined then some (members,stack.pop) else popMembers stack.pop n (c::members)
def popSet (s:State S)(next:List Cell→Cell→State S→Outcome S):Outcome S:=
 match popMembers s.stack s.stack.size [] with
 | none=>.stuck s
 | some (members,stack)=>{s with stack:=stack}.pop fun quantity s=>next members quantity s
def take (s:State S):Nat→(List Cell→State S→Outcome S)→Outcome S
 | 0,next=>next [] s
 | n+1,next=>s.pop fun c s=>s.take n fun cells=>next (cells++[c])
def jump (s:State S)(distance:Int):State S:={s with ip:=(s.ip+distance).toNat}
def jumpIf (s:State S)(condition:Bool)(distance:Int):State S:=
 if condition then s.jump distance else {s with ip:=s.ip+1}
end State
def enough (quantity:Cell)(found count:Int):Bool:=
 if quantity.isUndefined then count≤found
 else if quantity.word==0 then found==0
 else quantity.word.toInt≤found
def epsilon:Float:=Float.ofBits 0x3CB0000000000000
def compareIntegers (op:Comparison)(a b:Int64):Bool:=
 match op with
 | .equal=>a==b
 | .notEqual=>a != b
 | .less=>a<b
 | .lessEqual=>a≤b
 | .greater=>b<a
 | .greaterEqual=>b≤a
def compareFloats (op:Comparison)(a b:Float):Bool:=
 match op with
 | .equal=>(a-b).abs<epsilon
 | .notEqual=>epsilon≤(a-b).abs
 | .less=>a<b
 | .lessEqual=>a≤b
 | .greater=>a>b
 | .greaterEqual=>a≥b
def compareTexts (op:Comparison)(a b:Bytes):Bool:=
 let order:=Bytes.compare a b
 match op with
 | .equal=>order==0
 | .notEqual=>order != 0
 | .less=>order<0
 | .lessEqual=>order≤0
 | .greater=>order>0
 | .greaterEqual=>order≥0
def integerArithmetic (op:Arithmetic)(a b:Int64):Int64:=
 match op with
 | .add=>a+b
 | .subtract=>a-b
 | .multiply=>a*b
 | .divide=>
  if b==0||(a==minValue&&b==-1) then undefinedInteger else a/b
def floatArithmetic (op:Arithmetic)(a b:Float):Float:=
 match op with
 | .add=>a+b
 | .subtract=>a-b
 | .multiply=>a*b
 | .divide=>a/b
def bitOperation (op:BitOperator)(a b:Int64):Int64:=
 match op with
 | .remainder=>
  if b==0||(a==minValue&&b==-1) then undefinedInteger else a%b
 | .exclusive=>a ^^^ b
 | .conjunction=>a &&& b
 | .disjunction=>a ||| b
 | .shiftLeft=>if b<0 then undefinedInteger else if b<64 then a <<< b else 0
 | .shiftRight=>if b<0 then undefinedInteger else if b<64 then a >>> b else 0
def textOperation (op:TextOperator)(a b:Bytes):Bool:=
 match op with
 | .contains=>contains a b
 | .icontains=>containsNoCase a b
 | .startsWith=>startsWith a b
 | .istartsWith=>startsWithNoCase a b
 | .endsWith=>endsWith a b
 | .iendsWith=>endsWithNoCase a b
 | .iequals=>compareNoCase a b==0
def Cell.bytes:Cell→Bytes
 | .text b=>b
 | _=>ByteArray.empty
def Cell.matchesIn (f:Findings):Cell→MatchList
 | .string i=>f.of i
 | _=>.empty
def inRange (lo hi:Int64)(m:Match):Bool:=lo ≤ m.position&&m.position≤hi

/-- Whether a match passes a test.  Behind a match past some position none is looked at. -/
def seek (test:Match→Bool)(stop:Int64):List Match→Bool
 | []=>false
 | m::rest=>
  if test m then true
  else if stop < m.position then false
  else seek test stop rest
def seekCount (test:Match→Bool)(stop:Int64):List Match→Nat
 | []=>0
 | m::rest=>
  let n:=if test m then 1 else 0
  if stop < m.position then n else n+seekCount test stop rest
def seekAt (position:Int64):List Match→Bool:=seek (·.position==position) position
def seekIn (lo hi:Int64):List Match→Bool:=seek (inRange lo hi) hi
def seekCountIn (lo hi:Int64):List Match→Nat:=seekCount (inRange lo hi) hi

/-- Whether a string has a match in a range. Of the matches behind its start only the first one is looked at. -/
def firstInRange (lo hi:Int64):List Match→Bool:=seek (inRange lo hi) lo
def valueOf:Object→Option Cell
 | .integer v=>some (.integer v)
 | .float x=>some (if x.isNaN then .undefined else .float x)
 | .text (some b)=>some (.text b)
 | .text none=>some .undefined
 | _=>none
def Instruction.operandCount:Instruction→Option Nat
 | .pushInteger _ | .pushFloat _ | .pushText _ | .pushMatcher _ | .pushString _ | .pushUndefined
 | .pushObject _ | .pushRule _ | .fileSize | .entryPoint=>some 0
 | .member _ | .objectValue | .read _ | .count | .found | .negative _ | .complement | .textTruth
 | .not | .defined=>some 1
 | .item | .entry | .offset | .length | .foundAt | .arithmetic _ _ | .comparison _ _ | .bits _
 | .textOperation _ | .textMatches | .and | .or=>some 2
 | .countIn | .foundIn | .loopResult=>some 3
 | .call letters=>some (letters.length+1)
 | _=>none
def Instruction.placeCount:Instruction→Option Nat
 | .someStrings | .someRules | .percentOfStrings | .percentOfRules=>some 0
 | .someStringsAt=>some 1
 | .someStringsIn=>some 2
 | _=>none
section
variable {S:Type}
open State
def objectResult (e:Environment S)(i:Instruction)(operands:List Cell)(w:S):Option (Cell×S):=
 match i,operands with
 | .pushObject name,[]=>(e.world.object? name w).map fun o=>(.object o,w)
 | .member name,[c]=>
  if c.isUndefined then some (.undefined,w)
  else
   match c with
   | .object o=>(o.member? name).map fun m=>(.object m,w)
   | _=>none
 | .item,[c,index]=>
  if index.isUndefined||c.isUndefined then some (.undefined,w)
  else
   match c with
   | .object o=>some (Iteration.cellOf (o.item? index.word.toInt32.toInt),w)
   | _=>none
 | .entry,[c,key]=>
  if key.isUndefined||c.isUndefined then some (.undefined,w)
  else
   match c with
   | .object o=>some (Iteration.cellOf (o.lookup? (Bytes.untilNul key.bytes)),w)
   | _=>none
 | .call letters,f::arguments=>
  if f.isUndefined||arguments.any (·.isUndefined) then some (.undefined,w)
  else
   match f with
   | .object (.function overloads _)=>
    match overloads.find? fun o=>Overload.arguments o==letters with
    | none=>none
    | some o=>
     match e.world.call o.builtin arguments w with
     | (.ok result,w)=>some (.object result,w)
     | (.error _,_)=>none
   | _=>none
 | .objectValue,[c]=>
  if c.isUndefined then some (.undefined,w)
  else
   match c with
   | .object o=>(valueOf o).map fun v=>(v,w)
   | _=>none
 | _,_=>none
def nthMatch (l:MatchList)(n:Int64)(f:Match→Cell):Cell:=
 if 1≤n then (l.toList[(n.toInt-1).toNat]?).elim .undefined f else .undefined
def stringResult (found:Findings)(i:Instruction)(operands:List Cell):Option Cell:=
 match i,operands with
 | .found,[str]=>some (.ofBool !(str.matchesIn found).isEmpty)
 | .foundAt,[a,str]=>
  some (if a.isUndefined then .undefined
   else .ofBool (seekAt a.word (str.matchesIn found).toList))
 | .foundIn,[a,b,str]=>
  some (if a.isUndefined||b.isUndefined then .undefined
   else .ofBool (seekIn a.word b.word (str.matchesIn found).toList))
 | .count,[str]=>some (.integer (ofNat (str.matchesIn found).size))
 | .countIn,[a,b,str]=>
  some (if a.isUndefined||b.isUndefined then .undefined
   else .integer (ofNat (seekCountIn a.word b.word (str.matchesIn found).toList)))
 | .offset,[a,str]=>
  some (if a.isUndefined then .undefined
   else nthMatch (str.matchesIn found) a.word fun m=>.integer m.position)
 | .length,[a,str]=>
  some (if a.isUndefined then .undefined
   else nthMatch (str.matchesIn found) a.word fun m=>.integer (ofNat m.length))
 | _,_=>none
def compareCells (op:Comparison)(kind:NumberKind)(a b:Cell):Bool:=
 match kind with
 | .integer=>compareIntegers op a.word b.word
 | .float=>compareFloats op a.toFloat b.toFloat
 | .text=>compareTexts op a.bytes b.bytes
def unaryResult (f:Cell→Cell)(a:Cell):Cell:=if a.isUndefined then .undefined else f a
def binaryResult (f:Cell→Cell→Cell)(a b:Cell):Cell:=
 if a.isUndefined||b.isUndefined then .undefined else f a b
def atomResult (e:Environment S)(matched:Array Bool):Instruction→Option Cell
 | .pushInteger v=>some (.integer v)
 | .pushFloat x=>some (.float x)
 | .pushText b=>some (.text b)
 | .pushMatcher m=>some (.matcher m)
 | .pushString n=>some (.string n)
 | .pushUndefined=>some .undefined
 | .pushRule n=>
  some (if (e.set.rule n).disabled then .undefined else .ofBool (matched.getD n false))
 | .fileSize=>some (.integer e.fileSize)
 | .entryPoint=>some (.integer e.entryPoint)
 | _=>none
def matcherRun (e:Environment S)(m:Matcher)(a:Cell):Regex.Run:=
 let flags:Regex.RunFlags:=
  {Regex.RunFlags.none with search:=true,ignoreCase:=m.noCase,dotAll:=m.dotAll}
 Regex.run e.set.regexCode m.address flags ⟨a.bytes,0⟩
theorem matcherRun_congr {T:Type}{e:Environment S}{e':Environment T}
 (h:e'.set.regexCode=e.set.regexCode)(m:Matcher)(a:Cell):
 matcherRun e' m a=matcherRun e m a:=by
 unfold matcherRun
 rw[h]
def matchResult (e:Environment S)(a b:Cell):Option Cell:=
 if a.isUndefined||b.isUndefined then some .undefined
 else
  match b with
  | .matcher m=>
   let run:=matcherRun e m a
   if run.code==.success then some (.ofBool !run.lengths.isEmpty) else none
  | _=>none
def valueResult (e:Environment S)(i:Instruction)(operands:List Cell):Option Cell:=
 match i,operands with
 | .negative float,[a]=>
  some (unaryResult (fun a=>if float then .float (-a.toFloat) else .integer (-a.word)) a)
 | .complement,[a]=>some (unaryResult (fun a=>.integer (~~~a.word)) a)
 | .arithmetic op kind,[a,b]=>
  some (binaryResult (fun a b=>
   if kind==.integer then .integer (integerArithmetic op a.word b.word)
   else .float (floatArithmetic op a.toFloat b.toFloat)) a b)
 | .comparison op kind,[a,b]=>
  some (if kind==.float&&op==.less then
   .ofBool (!a.isUndefined&&!b.isUndefined&&a.toFloat<b.toFloat)
   else binaryResult (fun a b=>.ofBool (compareCells op kind a b)) a b)
 | .bits op,[a,b]=>some (binaryResult (fun a b=>.integer (bitOperation op a.word b.word)) a b)
 | .textOperation op,[a,b]=>
  some (binaryResult (fun a b=>.ofBool (textOperation op a.bytes b.bytes)) a b)
 | .textMatches,[a,b]=>matchResult e a b
 | .textTruth,[a]=>some (unaryResult (fun a=>.ofBool (0<a.bytes.size)) a)
 | .not,[a]=>some (unaryResult (fun a=>.ofBool (a.word==0)) a)
 | .defined,[a]=>some (.ofBool !a.isUndefined)
 | .and,[a,b]=>some (.ofBool (a.isTrue&&b.isTrue))
 | .or,[a,b]=>some (.ofBool (a.isTrue||b.isTrue))
 | .loopResult,[turns,hits,q]=>
  some (.ofBool (if turns.word==0 then false
    else if q.isUndefined then hits.word==turns.word
    else if q.word==0 then hits.word==0
    else q.word≤hits.word))
 | _,_=>none
theorem valueResult_congr {T:Type}{e:Environment S}{e':Environment T}
 (h:e'.set.regexCode=e.set.regexCode)(i:Instruction)(operands:List Cell):
 valueResult e' i operands=valueResult e i operands:=by
 have hma (a b:Cell):matchResult e' a b=matchResult e a b:=by
  simp only[matchResult,matcherRun_congr h]
 unfold valueResult
 simp only[hma]
inductive InstructionGroup where
 | object | string | value
def Instruction.group:Instruction→InstructionGroup
 | .pushObject _ | .member _ | .item | .entry | .call _ | .objectValue=>.object
 | .found | .foundAt | .foundIn | .count | .countIn | .offset | .length=>.string
 | _=>.value
def result (e:Environment S)(matched:Array Bool)(i:Instruction)(operands:List Cell)(w:S):Option (Cell×S):=
 match i.group with
 | .object=>objectResult e i operands w
 | .string=>(stringResult e.findings i operands).map (·,w)
 | _=>
  match i,operands with
  | .read kind,[c]=>
   some (.integer (e.world.read kind c.word w).1,(e.world.read kind c.word w).2)
  | i,[]=>(atomResult e matched i).map (·,w)
  | i,operands=>(valueResult e i operands).map (·,w)

/-- Why an operator has no result.  Without a reason, it has got values that no compiler gives it. -/
def refusal (e:Environment S)(i:Instruction)(operands:List Cell)(w:S):Option (ResultCode×S):=
 match i,operands with
 | .member _,[.object _]=>some (.invalidFieldName,w)
 | .call letters,.object (.function overloads _)::arguments=>
  match overloads.find? fun o=>Overload.arguments o==letters with
  | none=>none
  | some o=>
   match e.world.call o.builtin arguments w with
   | (.ok _,_)=>none
   | (.error code,w)=>some (code,w)
 | .textMatches,[a,.matcher m]=>
  let code:=(matcherRun e m a).code
  if code==.success then none else some (code,w)
 | _,_=>none
def operate (e:Environment S)(s:State S)(i:Instruction)(n:Nat):Outcome S:=
 s.take n fun operands s=>
  match result e s.matched i operands s.world with
  | some (c,w)=>{s with world:=w}.push e c
  | none=>
   match refusal e i operands s.world with
   | some (code,w)=>.failed code {s with world:=w}
   | none=>.stuck s
def memberHits (found:Findings)(members:List Cell):Nat:=
 (members.filter fun c=>!(c.matchesIn found).isEmpty).length
def memberTotal (members:List Cell):Int:=members.foldl (fun n c=>n+c.word.toInt) 0
def percentResult (q:Cell)(found:Int)(members:List Cell):Cell:=
 if q.isUndefined||members.isEmpty then .undefined
 else .ofBool (Float.ofInt found/Float.ofNat members.length*100≥q.word.toFloat)
def setResult (found:Findings)(i:Instruction)(q:Cell)(members place:List Cell):Option Cell:=
 match i,place with
 | .someStrings,[]=>some (.ofBool (enough q (memberHits found members) members.length))
 | .someRules,[]=>some (.ofBool (enough q (memberTotal members) members.length))
 | .percentOfStrings,[]=>some (percentResult q (memberHits found members) members)
 | .percentOfRules,[]=>some (percentResult q (memberTotal members) members)
 | .someStringsIn,[lo,hi]=>
  some (if lo.isUndefined||hi.isUndefined then .undefined
   else .ofBool (enough q (members.filter fun c=>
    firstInRange lo.word hi.word (c.matchesIn found).toList).length members.length))
 | .someStringsAt,[offset]=>
  some (if offset.isUndefined then .undefined
   else .ofBool (enough q (members.filter fun c=>
    seekAt offset.word (c.matchesIn found).toList).length members.length))
 | _,_=>none
def operateOnSet (e:Environment S)(s:State S)(i:Instruction)(n:Nat):Outcome S:=
 s.take n fun place s=>s.popSet fun members q s=>
  match setResult e.findings i q members place with
  | some c=>s.push e c
  | none=>.stuck s
def startIterator (e:Environment S)(s:State S)(kind:IteratorKind):Outcome S:=
 let many (next:List Cell→State S→Outcome S):Outcome S:=
  s.pop fun count s=>s.take count.word.toInt.toNat next
 match kind with
 | .array=>s.pop fun c s=>s.push e (.iteration (.ofArray c))
 | .dictionary=>s.pop fun c s=>s.push e (.iteration (.ofDictionary c))
 | .range=>
  s.pop fun hi s=>s.pop fun lo s=>s.push e (.iteration (.range lo.word hi.word))
 | .integers=>many fun members s=>
  s.push e (.iteration (.items (members.map fun c=>.integer c.word)))
 | .texts=>many fun members s=>s.push e (.iteration (.items members))
 | .strings=>many fun members s=>s.pop fun _ s=>s.push e (.iteration (.items members))
def nextItem (e:Environment S)(s:State S):Outcome S:=
 s.pop fun c s=>
  match c with
  | .iteration it=>
   if e.capacity<s.stack.size+2+it.width then
    .failed .execStackOverflow {s with stack:=s.stack.push c}
   else
    match it.next with
    | some (item,rest)=>
     .running { s with
      stack:=(s.stack.push (.iteration rest)).push (.integer 0)++item.toArray }
    | none=>
     .running { s with
      stack:=(s.stack.push c).push (.integer 1)++Array.replicate it.width Cell.undefined }
  | _=>.stuck s
def floatOf (c:Cell):Cell:=if c.isUndefined then .undefined else .float c.word.toFloat
def goesOn (q hits last:Cell):Bool:=
 if q.isUndefined then last.word != 0
 else if q.word==0 then last.word != 1
 else hits.word+last.word<q.word
def stepControl (e:Environment S)(s:State S)(i:Instruction):Outcome S:=
 let slot (n:Nat)(f:State S→Outcome S):Outcome S:=
  if n<s.slots.size then f {s with ip:=s.ip+1} else .failed .internalFatalError s
 match i with
 | .pushSlot n=>slot n fun s=>s.push e (s.slots.getD n default)
 | .popSlot n=>slot n fun s=>s.pop fun c s=>
  .running {s with slots:=s.slots.setIfInBounds n c}
 | .clearSlot n=>slot n fun s=>
  .running {s with slots:=s.slots.setIfInBounds n (.integer 0)}
 | .incrementSlot n=>slot n fun s=>
  .running {s with slots:=s.slots.modify n fun c=>.integer (c.word+1)}
 | .addToSlot n=>slot n fun s=>s.pop fun c s=>
  if c.isUndefined then .running s
  else .running {s with slots:=s.slots.modify n fun d=>.integer (d.word+c.word)}
 | .jumpIfFalse distance=>
  match s.stack.back? with
  | none=>.stuck s
  | some c=>.running (s.jumpIf (!c.isUndefined&&c.word==0) distance)
 | .jumpIfTrue distance=>
  match s.stack.back? with
  | none=>.stuck s
  | some c=>.running (s.jumpIf c.isTrue distance)
 | .popAndJumpIfTrue distance=>s.pop fun c s=>.running (s.jumpIf c.isTrue distance)
 | .openRule index distance=>
  let r:=e.set.rule index
  let skip:=r.disabled||!(e.findings.required.getD index false)
  let s:=s.jumpIf skip distance
  if skip&&r.everywhere then
   .running {s with unsatisfied:=s.unsatisfied.setIfInBounds r.space true}
  else .running s
 | .closeRule index=>
  {s with ip:=s.ip+1}.pop fun c s=>
    let r:=e.set.rule index
    if !s.stack.isEmpty then .stuck s
    else if c.isTrue then .running {s with matched:=s.matched.setIfInBounds index true}
    else if r.everywhere then
     .running {s with unsatisfied:=s.unsatisfied.setIfInBounds r.space true}
    else .running s
 | .loopCondition=>
  {s with ip:=s.ip+1}.pop fun q s=>s.pop fun hits s=>s.pop fun last s=>
    match s.push e (.ofBool (goesOn q hits last)) with
    | .running s=>s.push e last
    | failure=>failure
 | .pop=>{s with ip:=s.ip+1}.pop fun _ s=>.running s
 | .toFloat depth=>
  if depth ≤ s.stack.size then
   .running {s with ip:=s.ip+1,stack:=s.stack.modify (s.stack.size-depth) floatOf}
  else .failed .internalFatalError s
 | .startIterator kind=>startIterator e {s with ip:=s.ip+1} kind
 | .nextItem=>nextItem e {s with ip:=s.ip+1}
 | .importModule name=>
  match e.world.load name s.world with
  | (.success,world)=>.running {s with ip:=s.ip+1,world:=world}
  | (code,world)=>.failed code {s with world:=world}
 | .halt=>if s.stack.isEmpty then .halted s else .stuck s
 | _=>.stuck s
def step (e:Environment S)(s:State S):Outcome S:=
 match e.set.code[s.ip]? with
 | none=>.stuck s
 | some i=>
  match i.operandCount,i.placeCount with
  | some n,_=>operate e {s with ip:=s.ip+1} i n
  | none,some n=>operateOnSet e {s with ip:=s.ip+1} i n
  | none,none=>stepControl e s i
def run (e:Environment S):Nat→State S→ResultCode×State S
 | 0,s=>(.internalFatalError,s)
 | allowance+1,s=>
  match step e s with
  | .running s=>run e allowance s
  | .halted s=>(.success,s)
  | .failed code s=>(code,s)
  | .stuck s=>(.internalFatalError,s)
end
def stepLimit:Nat:=0x4000000000000000
def evaluate {S:Type}(e:Environment S)(world:S):ResultCode×State S:=
 run e stepLimit
  { matched:=Array.replicate e.set.rules.size false
    unsatisfied:=Array.replicate e.set.spaces.size false
    world:=world }
end PatternScan.Condition
