import PatternScan.Regex.Code
/-! The machine runs the code of a pattern on a byte string from a given position, forwards or
backwards, with all its threads in step. -/
namespace PatternScan.Regex
open Bytes (isDigit isSpace isWord lower)
open Bytes Limits
/-! A thread waits at an instruction that reads input or tests a position. -/
structure Thread where
 address:Nat
 counters:List Nat
 taken:Option Nat
 deriving DecidableEq
def Thread.start (address:Nat):Thread:=⟨address,[],none⟩
structure Pool where
 made:Nat
 idle:Nat
 deriving DecidableEq
namespace Pool
def empty:Pool:=⟨0,0⟩
def take (p:Pool):Except ResultCode Pool:=
 if p.idle>0 then .ok {p with idle:=p.idle-1}
 else if p.made=Limits.regexThreads then .error .tooManyReFibers
 else .ok {p with made:=p.made+1}
def release (p:Pool)(n:Nat):Pool:={p with idle:=p.idle+n}
end Pool
/-- A run that goes on with a thread that is in the pool is `lost`. -/
inductive Fault where
 | code (c:ResultCode)
 | endless | lost
 deriving DecidableEq
inductive Step where
 | take | drop | wait
structure Expansion where
 threads:List Thread
 branches:List Nat
 pool:Pool
 /-- The thread itself is among the threads, as the first of them. -/
 kept:Bool
 log:List Step

/-- What becomes of the thread itself in an expansion: given back, it may be taken out of the pool for another one. -/
structure Trail where
 own:Bool
 pending:List Bool
 idle:Nat
 /-- How many threads are taken before it if it is in the pool. -/
 ahead:Option Nat
 placed:Nat
 place:Option Nat
def Trail.step (s:Trail):Step→Trail
 | .take=>{s with
   pending:=(s.ahead==some 0)::s.pending,idle:=s.idle-1,ahead:=(s.ahead.filter (0<·)).map (·-1)}
 | .drop=>{s with
   own:=s.pending.headD false,pending:=s.pending.tail
   idle:=s.idle+1,ahead:=if s.own then some s.idle else s.ahead}
 | .wait=>{s with
   own:=s.pending.headD false,pending:=s.pending.tail
   placed:=s.placed+1,place:=if s.own then some s.placed else s.place}
def Expansion.place (x:Expansion)(idle:Nat):Option Nat:=
 (x.log.foldl Trail.step ⟨true,[],idle,none,0,none⟩).place
inductive Course where
 | drop
 | wait (t:Thread)
 | go (t:Thread)
 | fork (first second:Thread)(branches:List Nat)
 | linger (greedy:Bool)(waiting past:Thread)
namespace Thread
def take (p:Pool):Except Fault Pool:=
 match p.take with
 | .ok p=>.ok p
 | .error c=>.error (.code c)
def course (code:Code)(t:Thread)(branches:List Nat):Course:=
 let inst:=code.fetch t.address
 let next:=t.address+inst.size
 match inst with
 | .split nextFirst id distance=>
  let here:={t with address:=next}
  let there:={t with address:=code.target t.address distance}
  if branches.contains id then .drop
  else if nextFirst then .fork here there (id::branches) else .fork there here (id::branches)
 | .repeatStart greedy lo _ distance=>
  let inside:={t with address:=next,counters:=0::t.counters}
  let past:={t with address:=code.target t.address distance}
  if lo=0 then if greedy then .fork inside past branches else .fork past inside branches
  else .go inside
 | .repeatEnd greedy lo hi distance=>
  let (count,outer):=
   match t.counters with
   | n::outer=>(n+1,outer)
   | []=>(1,[])
  let again:=
   {t with address:=code.target t.address distance,counters:=count::outer}
  let past:={t with address:=next,counters:=outer}
  if count<lo then .go again
  else if count<hi then if greedy then .fork again past branches else .fork past again branches
  else .go past
 | .gap lo hi greedy=>
  let count:=t.taken.getD 0
  let waiting:={t with taken:=some (count+1)}
  let past:={t with address:=next,taken:=none}
  if count<lo then .wait waiting
  else if count<hi then .linger greedy waiting past
  else .go past
 | .jump distance=>.go {t with address:=code.target t.address distance}
 | _=>.wait t
def expand (code:Code):Nat→Thread→List Nat→Pool→Except Fault Expansion
 | 0,_,_,_=>.error .endless
 | fuel+1,t,branches,pool=>
  match t.course code branches with
  | .drop=>.ok ⟨[],branches,pool.release 1,false,[.drop]⟩
  | .wait t=>.ok ⟨[t],branches,pool,true,[.wait]⟩
  | .go t=>expand code fuel t branches pool
  | .fork first second branches=>do
   let pool ← take pool
   let a ← expand code fuel first branches pool
   let b ← expand code fuel second a.branches a.pool
   pure ⟨a.threads++b.threads,b.branches,b.pool,a.kept,.take::(a.log++b.log)⟩
  | .linger greedy waiting past=>do
   let pool ← take pool
   let b ← expand code fuel past [] pool
   let threads:=if greedy then waiting::b.threads else b.threads++[waiting]
   pure ⟨threads,branches,b.pool,greedy||b.kept,.take::if greedy then .wait::b.log else b.log++[.wait]⟩
def distinct:List Thread→List Thread→Pool→List Thread×Pool
 | [],kept,pool=>(kept.reverse,pool)
 | t::ts,kept,pool=>
  if kept.contains t then distinct ts kept (pool.release 1) else distinct ts (t::kept) pool
end Thread
structure RunFlags where
 backwards:Bool
 /-- Every match is reported; otherwise a match ends all threads that come after it. -/
 exhaustive:Bool
 wide:Bool
 ignoreCase:Bool
 search:Bool
 dotAll:Bool
 deriving DecidableEq
namespace RunFlags
def none:RunFlags:=⟨false,false,false,false,false,false⟩
def ofNat (n:Nat):RunFlags where
 backwards:=n.testBit 2
 exhaustive:=n.testBit 3
 wide:=n.testBit 4
 ignoreCase:=n.testBit 5
 search:=n.testBit 6
 dotAll:=n.testBit 7
end RunFlags
structure Input where
 data:Bytes
 pos:Nat
structure Run where
 lengths:Array Nat
 result:Except Fault Unit
namespace Run
def code (r:Run):ResultCode:=
 match r.result with
 | .ok _=>.success
 | .error (.code c)=>c
 | .error .endless | .error .lost=>.internalFatalError
def last? (r:Run):Option Nat:=r.lengths.back?
def stopAt (r:Run)(limit:Nat)(c:ResultCode):Run:=
 if limit>0&&limit≤r.lengths.size then
  ⟨r.lengths.extract 0 limit,.error (.code c)⟩
 else r

/-- The length that a run leaves behind, -1 if there is none. The machine for bytes and gaps leaves one only where it
stops at the first match. -/
def shownLength? (r:Run)(linear exhaustive:Bool):Option Int:=
 if linear&&exhaustive then
  if r.code=.success then some (-1) else none
 else some (r.last?.elim (-1) Int.ofNat)
end Run
namespace Machine
structure View where
 read:Nat
 blocked:Bool
 byte:UInt8
 wordHere:Bool
 wordBefore:Bool
 first:Bool
 last:Bool
def wordAt (data:Bytes)(width:Nat)(i:Int):Bool:=
 i≥0&&i+width≤data.size&&isWord (data.byteAtInt i)&&(width=1||data.byteAtInt (i+1)=0)
def width (f:RunFlags):Nat:=if f.wide then 2 else 1
def reach (f:RunFlags)(inp:Input):Nat:=
 let n:=min (if f.backwards then inp.pos else inp.data.size-inp.pos) Limits.regexInput
 n-n%width f
def view (f:RunFlags)(inp:Input)(read:Nat):View:=
 let w:=width f
 let here:Int:=if f.backwards then (inp.pos:Int)-read-w else inp.pos+read
 let before:Int:=if f.backwards then here+w else here-w
 { read:=read
   blocked:=read≥reach f inp||(f.wide&&inp.data.byteAtInt (here+1)≠0)
   byte:=inp.data.byteAtInt here
   wordHere:=wordAt inp.data w here
   wordBefore:=wordAt inp.data w before
   first:=if f.backwards then inp.pos≤read else inp.pos=0&&read=0
   last:=!f.backwards&&inp.data.size-inp.pos≤read }
inductive Verdict where
 | die | read | pass | accept
 deriving DecidableEq
def verdict (f:RunFlags)(v:View)(i:Inst):Verdict:=
 let reads (ok:Bool):Verdict:=if !v.blocked&&ok then .read else .die
 let tests (ok:Bool):Verdict:=if ok then .pass else .die
 match i with
 | .any | .gap _ _ _=>reads (f.dotAll||v.byte≠10)
 | .literal c=>
  reads (if f.ignoreCase then lower v.byte=lower c else v.byte=c)
 | .notLiteral c=>reads (v.byte≠c)
 | .masked value mask=>reads (v.byte &&& mask=value)
 | .maskedNot value mask=>reads (v.byte &&& mask≠value)
 | .cls k=>reads (k.accepts v.byte f.ignoreCase)
 | .wordChar=>reads (isWord v.byte)
 | .nonWordChar=>reads (!isWord v.byte)
 | .space=>reads (isSpace v.byte)
 | .nonSpace=>reads (!isSpace v.byte)
 | .digit=>reads (isDigit v.byte)
 | .nonDigit=>reads (!isDigit v.byte)
 | .boundary=>tests (v.wordBefore != v.wordHere)
 | .nonBoundary=>tests (v.wordBefore==v.wordHere)
 | .atStart=>tests v.first
 | .atEnd=>tests v.last
 | .accept=>.accept
 | _=>.die
def advance (t:Thread)(i:Inst):Thread:=
 match i with
 | .gap _ _ _=>t
 | i=>{t with address:=t.address+i.size}
structure State where
 threads:List Thread
 pool:Pool
 lengths:Array Nat
structure Allowance where
 expand:Nat
 sweep:Nat
def allowance:Allowance:=⟨0x4000000,0x400000⟩
def sweep (allowed:Allowance)(code:Code)(f:RunFlags)(v:View):
 Nat→List Thread→List Thread→Pool→Array Nat→Except Fault State×Array Nat
 | _,[],done,pool,lengths=>(.ok ⟨done.reverse,pool,lengths⟩,lengths)
 | 0,_::_,_,_,lengths=>(.error .endless,lengths)
 | fuel+1,t::ts,done,pool,lengths=>
  let inst:=code.fetch t.address
  match verdict f v inst with
  | .die=>sweep allowed code f v fuel ts done (pool.release 1) lengths
  | .accept=>
   let lengths:=lengths.push v.read
   if f.exhaustive then sweep allowed code f v fuel ts done (pool.release 1) lengths
   else (.ok ⟨done.reverse,pool.release (ts.length+1),lengths⟩,lengths)
  | .pass=>
   match Thread.expand code allowed.expand (advance t inst) [] pool with
   | .ok x=>
    if x.kept then sweep allowed code f v fuel (x.threads++ts) done x.pool lengths
    else
     -- the run goes on where the thread is now, and leaves those before it to the next round
     match x.place pool.idle with
     | some k=>sweep allowed code f v fuel (x.threads.drop k++ts) ((x.threads.take k).reverse++done) x.pool lengths
     | none=>(.error .lost,lengths)
   | .error e=>(.error e,lengths)
  | .read=>
   match Thread.expand code allowed.expand (advance t inst) [] pool with
   | .ok x=>sweep allowed code f v fuel ts (x.threads.reverse++done) x.pool lengths
   | .error e=>(.error e,lengths)
def spawn (allowed:Allowance)(code:Code)(entry:Nat)(s:State):Except Fault State:=do
 let pool ← Thread.take s.pool
 let x ← Thread.expand code allowed.expand (Thread.start entry) [] pool
 pure {s with threads:=s.threads++x.threads,pool:=x.pool}
def rounds (allowed:Allowance)(code:Code)(f:RunFlags)(inp:Input)(entry:Nat):Nat→Nat→State→Run
 | 0,_,s=>⟨s.lengths,if s.threads.isEmpty then .ok () else .error .endless⟩
 | n+1,read,s=>
  if s.threads.isEmpty then ⟨s.lengths,.ok ()⟩
  else
   let (threads,pool):=Thread.distinct s.threads [] s.pool
   match sweep allowed code f (view f inp read) allowed.sweep threads [] pool s.lengths with
   | (.error e,lengths)=>⟨lengths,.error e⟩
   | (.ok s,lengths)=>
    let read:=read+width f
    if f.search&&read<reach f inp then
     match spawn allowed code entry s with
     | .ok s=>rounds allowed code f inp entry n read s
     | .error e=>⟨lengths,.error e⟩
    else rounds allowed code f inp entry n read s
end Machine
def runWithin (allowed:Machine.Allowance)(code:Code)(entry:Nat)(f:RunFlags)(inp:Input):
 Run:=
 match Machine.spawn allowed code entry ⟨[],Pool.empty,#[]⟩ with
 | .ok s=>Machine.rounds allowed code f inp entry (Machine.reach f inp+allowed.sweep+2) 0 s
 | .error e=>⟨#[],.error e⟩
def run (code:Code)(entry:Nat)(f:RunFlags)(inp:Input):Run:=
 runWithin Machine.allowance code entry f inp
end PatternScan.Regex