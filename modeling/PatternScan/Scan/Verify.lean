import PatternScan.Regex.GapMachine
import PatternScan.Scan.Findings
/-! The automaton only finds atoms; what stands around them is verified. -/
namespace PatternScan.Scan
open Bytes Automaton Regex
/-! A scan tells its listener what happens, in order, and the listener says whether to go on. -/
abbrev RuleMatches:=List (Nat×MatchList)
inductive Event where
 | importing (module:String)
 | imported (module:String)(object:Object)
 | matching (rule:Nat)(found:RuleMatches)
 | notMatching (rule:Nat)(found:RuleMatches)
 | console (message:Bytes)
 | tooManyMatches (string:Nat)
 | tooSlow (string:Nat)
 | finished
deriving Inhabited
inductive Response where
 | proceed | abort | error
deriving DecidableEq,Inhabited
structure Listener where
 respond:Event→Response
 moduleData:String→Option Bytes
instance:Inhabited Listener:=⟨⟨fun _=>.proceed,fun _=>none⟩⟩
structure Block where
 base:Int64
 data:Bytes
deriving Inhabited
structure SearchSetting where
 set:RuleSet
 listener:Listener
 fast:Bool
 room:Int
def agreesFrom (view:UInt8→UInt8)(data text:Bytes)(width:Nat)(filler:UInt8)(offset i:Nat):Bool:=
 if i<text.size then
  let at_:=offset+width*i
  view (data.byteAt at_)==view (text.byteAt i)&&(width==1||data.byteAt (at_+1)==filler)
   && agreesFrom view data text width filler offset (i+1)
 else true
termination_by text.size-i
def textLength (view:UInt8→UInt8)(data text:Bytes)(width:Nat)(filler:UInt8)(offset:Nat):Nat:=
 if data.size-offset<width*text.size then 0
 else if agreesFrom view data text width filler offset 0 then width*text.size
 else 0
def xorLength (data text:Bytes)(width offset:Nat):Nat×UInt8:=
 let key:=data.byteAt offset ^^^ text.byteAt 0
 let text:=text.foldl (fun b c=>b.push (c ^^^ key)) ByteArray.empty
 let length:=textLength id data text width key offset
 if length==0 then (0,0) else (length,key)

/-- The length of a literal at an offset and its key. A text no longer than its atom has already been compared. -/
def literalLength (s:RuleString)(backtrack:Nat)(data:Bytes)(offset:Nat):Nat×UInt8:=
 let f:=s.flags
 let plain (view:UInt8→UInt8):Nat:=
  let n:=if f.ascii then textLength view data s.text 1 0 offset else 0
  if f.wide&&n==0 then textLength view data s.text 2 0 offset else n
 if f.fitsInAtom then
  if f.xor then
   let wide:=if f.wide then xorLength data s.text 2 offset else (0,0)
   let ascii:=if f.ascii then xorLength data s.text 1 offset else (0,0)
   (backtrack,if 0<ascii.1 then ascii.2 else wide.2)
  else (backtrack,0)
 else if f.noCase then (plain lower,0)
 else
  let n:=plain id
  if f.xor&&n==0 then
   let wide:=if f.wide then xorLength data s.text 2 offset else (0,0)
   if 0<wide.1 then wide else xorLength data s.text 1 offset
  else (n,0)
def standsAlone (data:Bytes)(offset length:Nat)(wide:Bool):Bool:=
 let stop:=offset+length
 if wide then
  !(2≤offset&&data.byteAt (offset-1)==0&&isAlnum (data.byteAt (offset-2)))
   && !(stop+1<data.size&&data.byteAt (stop+1)==0&&isAlnum (data.byteAt stop))
 else
  !(1≤offset&&isAlnum (data.byteAt (offset-1)))&&!(stop<data.size&&isAlnum (data.byteAt stop))
def found (room:Int)(s:RuleString)(b:Block)(offset length:Nat)(key:UInt8):Match where
 base:=b.base
 offset:=offset
 length:=length
 block:=b.data
 start:=offset
 shown:=min (length:Int) room
 key:=key
 hidden:=s.flags.hidden
def accept (set:RuleSet)(room:Int)(s:RuleString)(b:Block)(offset length:Nat)
 (wide:Bool)(key:UInt8)(f:Findings):ResultCode×Findings:=
 if s.flags.fullWord&&!standsAlone b.data offset length wide then (.success,f)
 else
  let m:=found room s b offset length key
  if s.flags.chainPart then f.addPart set.strings s m room
  else f.confirm s m s.flags.greedy
structure Hit where
 string:Nat
 offset:Nat
 length:Nat
 wide:Bool
 key:UInt8
section
variable (c:SearchSetting)(b:Block)
def Hit.take (h:Hit)(f:Findings):ResultCode×Findings:=
 accept c.set c.room (c.set.string h.string) b h.offset h.length h.wide h.key f
def takeAll:List Hit→Findings→ResultCode×Findings
 | [],f=>(.success,f)
 | h::hs,f=>
  match h.take c b f with
  | (.success,f)=>takeAll hs f
  | failure=>failure
def literalHits (j backtrack offset:Nat):List Hit:=
 let s:=c.set.string j
 let x:=literalLength s backtrack b.data offset
 if x.1==0 then [] else [⟨j,offset,x.1,x.1==2*s.text.size,x.2⟩]
def runFlags (s:RuleString)(wide:Bool):RunFlags:=
 {RunFlags.none with wide:=wide,ignoreCase:=s.flags.noCase,dotAll:=s.flags.dotAll}
def runCode (code:Code)(s:RuleString)(data:Bytes)(offset address:Nat)(flags:RunFlags):Run:=
 if s.flags.linear then GapMachine.run code address flags ⟨data,offset⟩
 else run code address flags ⟨data,offset⟩

/-- One of the two runs over a pattern: forward from the atom, and if that matches backward from it. `forward` is the
length known so far, kept when the run reports none. -/
def runHits (j:Nat)(entry:Entry)(offset:Nat)(wide:Bool)(forward:Int):ResultCode×Int×List Hit:=
 let s:=c.set.string j
 match entry.forward with
 | none=>(.success,forward,[])
 | some address=>
  let run:=runCode c.set.regexCode s b.data offset address (runFlags s wide)
  if run.code != .success then (run.code,forward,[])
  else
   let forward:=(run.shownLength? s.flags.linear false).getD forward
   if forward==-1 then (.success,forward,[])
   else
    match entry.backward with
    | none=>(.success,forward,[⟨j,offset,forward.toNat,false,0⟩])
    | some address=>
     let run:=runCode c.set.regexCode s b.data offset address {runFlags s wide with backwards:=true,exhaustive:=true}
     (run.code,forward,run.lengths.toList.map fun n=>
      ⟨j,offset-n,n+forward.toNat,wide,0⟩)
def patternHits (j:Nat)(entry:Entry)(offset:Nat):ResultCode×List Hit:=
 let s:=c.set.string j
 let first:=
  if s.flags.ascii||s.flags.base64||s.flags.base64Wide then
   runHits c b j entry offset false (-1)
  else (.success,-1,[])
 if first.1==.success&&s.flags.wide then
  let second:=runHits c b j entry offset true first.2.1
  (second.1,first.2.2++second.2.2)
 else (first.1,first.2.2)

/-- Where a string matches around an atom depends on the block alone, not on what has been found. -/
def hits (r:Registration)(offset:Nat):ResultCode×List Hit:=
 let s:=c.set.string r.string
 if b.data.size≤offset||(s.flags.fixedOffset&&s.fixedOffset != b.base+Int64.ofNat offset) then
  (.success,[])
 else if s.flags.literal then (.success,literalHits c b r.string r.backtrack offset)
 else patternHits c b r.string r.entry offset
def verified (r:Registration)(offset:Nat)(f:Findings):ResultCode×Findings:=
 let x:=hits c b r offset
 let (code,f):=takeAll c b x.2 f
 (if code==.success then x.1 else code,f)
end
end PatternScan.Scan
