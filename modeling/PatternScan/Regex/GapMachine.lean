import PatternScan.Regex.Machine
/-! A pattern of bytes and gaps needs no threads: its instructions are run one after the other, each of
them at every position that is still possible. -/
namespace PatternScan.Regex.GapMachine
structure Position where
 index:Int
 round:Nat
 deriving DecidableEq
structure Setting where
 code:Code
 inp:Input
 backwards:Bool
 exhaustive:Bool
namespace Setting
def step (s:Setting):Int:=if s.backwards then -1 else 1
def reach (s:Setting):Nat:=
 min (if s.backwards then s.inp.pos else s.inp.data.size-s.inp.pos) Limits.regexInput
def readBefore (s:Setting)(index:Int):Int:=
 if s.backwards then s.inp.pos-index-1 else index-s.inp.pos
def start (s:Setting):Position:=⟨if s.backwards then s.inp.pos-1 else s.inp.pos,0⟩
def promising (s:Setting)(next:Inst)(index:Int):Bool:=
 match next with
 | .literal c=>s.inp.data.byteAtInt index=c
 | _=>true
end Setting
/-- The list behind a position while a gap adds to it: the last one passed or the position itself, those passed
before, the last one first, and those still to pass. -/
structure Place where
 current:Position
 passed:List Position
 ahead:List Position
def Place.advance (index:Int)(current:Position)(passed:List Position):List Position→Place
 | []=>⟨current,passed,[]⟩
 | q::qs=>
  if q.index ≤ index then advance index q (q::passed) qs else ⟨current,passed,q::qs⟩
def addPositions (s:Setting)(next:Inst)(p:Position)(read:Int):Nat→Nat→Place→Place
 | 0,_,place=>place
 | n+1,j,place=>
  if read+j≥s.reach then place
  else
   let index:=p.index+j*s.step
   let place:=Place.advance index place.current place.passed place.ahead
   if place.current.round=p.round+1&&place.current.index=index then
    addPositions s next p read n (j+1) place
   else if !s.promising next index then addPositions s next p read n (j+1) place
   else
    addPositions s next p read n (j+1) {place with ahead:=⟨index,p.round+1⟩::place.ahead}
def spread (s:Setting)(next:Inst)(p:Position)(lo hi:Nat)(rest:List Position):List Position:=
 let place:=addPositions s next p (s.readBefore p.index) (hi-lo) (lo+1) ⟨p,[],rest⟩
 place.passed.reverse++place.ahead
def readsByte (s:Setting)(i:Inst)(index:Int):Bool:=
 let c:=s.inp.data.byteAtInt index
 match i with
 | .any=>true
 | .literal b=>c=b
 | .notLiteral b=>c≠b
 | .masked value mask=>c &&& mask=value
 | .maskedNot value mask=>c &&& mask≠value
 | _=>false

/-- One round: the instruction `i` at every position that is due. The list may grow, but never by a position that is
due in this round, so `fuel` is the number of possible positions. -/
def sweep (s:Setting)(i next:Inst)(round:Nat):Nat→List Position→List Position→List Position
 | _,[],done=>done.reverse
 | 0,_::_,done=>done.reverse
 | fuel+1,p::rest,done=>
  if p.round≠round then sweep s i next round fuel rest (p::done)
  else
   match i with
   | .gap lo hi _=>
    if s.readBefore p.index+lo≥s.reach then sweep s i next round fuel rest done
    else
     let moved:=⟨p.index+lo*s.step,round+1⟩
     sweep s i next round fuel (spread s next p lo hi rest) (moved::done)
   | i=>
    if s.readBefore p.index<s.reach&&readsByte s i p.index then
     sweep s i next round fuel rest (⟨p.index+s.step,round+1⟩::done)
    else sweep s i next round fuel rest done
def sweepFuel (s:Setting)(n:Nat):Nat:=(n+1)*(s.reach+2)
def rounds (s:Setting):Nat→Nat→Nat→List Position→Run
 | 0,_,_,_=>⟨#[],.error .endless⟩
 | fuel+1,address,round,positions=>
  if positions.isEmpty then ⟨#[],.ok ()⟩
  else
   let inst:=s.code.fetch address
   match inst with
   | .accept=>
    let due:=positions.filter fun p=>p.round=round
    let lengths:=due.map fun p=>(s.readBefore p.index).toNat
    if s.exhaustive then ⟨(lengths.map fun n=>min n s.reach).toArray,.ok ()⟩
    else ⟨(lengths.take 1).toArray,.ok ()⟩
   | inst=>
    let address:=address+inst.size
    let positions:=
     sweep s inst (s.code.fetch address) round (sweepFuel s positions.length) positions []
    rounds s fuel address (round+1) positions
def run (code:Code)(entry:Nat)(f:RunFlags)(inp:Input):Run:=
 let s:Setting:=⟨code,inp,f.backwards,f.exhaustive⟩
 rounds s (code.size+1) entry 0 [s.start]
end PatternScan.Regex.GapMachine
