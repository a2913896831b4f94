import PatternScan.Regex.Node
import PatternScan.ResultCode
/-! A pattern is compiled into instructions at byte addresses: an instruction stands at the address of
its first byte, so that jumps are distances in bytes. -/
namespace PatternScan.Regex
inductive Inst where
 | filler | any
 | literal (byte:UInt8)
 | notLiteral (byte:UInt8)
 | masked (value mask:UInt8)
 | maskedNot (value mask:UInt8)
 | cls (k:ByteClass)
 | wordChar | nonWordChar | space | nonSpace | digit | nonDigit | accept | atStart | atEnd | boundary
 | nonBoundary
 | gap (lo hi:Nat)(greedy:Bool)
 /-- Two ways on: at the next instruction and at a distance. The former comes first when
 `nextFirst` holds. -/
 | split (nextFirst:Bool)(id:Nat)(distance:Int)
 | jump (distance:Int)
 | repeatStart (greedy:Bool)(lo hi:Nat)(distance:Int)
 | repeatEnd (greedy:Bool)(lo hi:Nat)(distance:Int)
 deriving DecidableEq
def Inst.size:Inst→Nat
 | .literal _ | .notLiteral _=>2
 | .masked _ _ | .maskedNot _ _=>3
 | .cls _=>34
 | .gap _ _ _=>5
 | .split _ _ _=>4
 | .jump _=>3
 | .repeatStart _ _ _ _ | .repeatEnd _ _ _ _=>9
 | _=>1
structure Code where
 slots:Array Inst
 deriving Inhabited
namespace Code
def empty:Code:=⟨#[]⟩
def size (c:Code):Nat:=c.slots.size
@[inline]
def fetch (c:Code)(address:Nat):Inst:=
 if h:address<c.slots.size then c.slots[address] else .filler
def push (c:Code)(i:Inst):Code:=
 ⟨(i.size-1).fold (fun _ _ s=>s.push .filler) (c.slots.push i)⟩
def patch (c:Code)(address:Nat)(i:Inst):Code:=
 ⟨c.slots.setIfInBounds address i⟩
@[inline]
def target (c:Code)(address:Nat)(distance:Int):Nat:=
 let t:Int:=address+distance
 if t<0 then c.slots.size else t.toNat
end Code
structure Entry where
 forward:Option Nat
 backward:Option Nat
 deriving Inhabited,DecidableEq
structure Emission where
 code:Code
 splits:Nat
 entries:Array Entry
namespace Node
def loopLow (lo hi:Nat):Nat:=
 lo-(if lo>0 then 1 else 0)-(if hi>lo then 0 else 1)
def loopHigh (lo hi:Nat):Nat:=hi-(if lo>0 then 1 else 0)-1
def hasLoop (lo hi:Nat):Bool:=hi>lo+1||hi>2
def hasEpilog (lo hi:Nat):Bool:=hi>lo||hi>1
end Node
namespace Emission
def address (e:Emission):Nat:=e.code.size
def push (e:Emission)(i:Inst):Emission:={e with code:=e.code.push i}
def pushSplit (e:Emission)(nextFirst:Bool)(distance:Int):Except ResultCode Emission:=
 if e.splits=Limits.regexBranches then .error .regularExpressionTooComplex
 else .ok {e with code:=e.code.push (.split nextFirst e.splits distance),splits:=e.splits+1}
def setDistance (e:Emission)(address:Nat)(distance:Int):Emission:=
 let i:=
  match e.code.fetch address with
  | .split first id _=>.split first id distance
  | .jump _=>.jump distance
  | .repeatStart g lo hi _=>.repeatStart g lo hi distance
  | i=>i
 {e with code:=e.code.patch address i}

/-- The distance from `here` back to `there`, in sixteen bits. Code that has no first instruction counts as standing
just before the code section. -/
def distanceBack (here:Nat)(there:Option Nat):Except ResultCode Int:=
 match there with
 | some t=>if here-t>32768 then .error .regularExpressionTooLarge else .ok ((t:Int)-here)
 | none=>if here>32767 then .error .regularExpressionTooLarge else .ok (-(here:Int)-1)
def distanceOn (there here:Nat):Except ResultCode Int:=
 if here-there>32767 then .error .regularExpressionTooLarge else .ok ((here:Int)-there)
structure Mode where
 backwards:Bool
 setForward:Bool
 setBackward:Bool
def note (e:Emission)(m:Mode)(anchor first:Nat):Emission:=
 if m.backwards then
  if m.setBackward then
   {e with entries:=e.entries.modify anchor fun x=>{x with backward:=some e.address}}
  else e
 else if m.setForward then
  {e with entries:=e.entries.modify anchor fun x=>{x with forward:=some first}}
 else e
def leaf? : Node→Option Inst
 | .literal c _=>some (.literal c)
 | .notLiteral c=>some (.notLiteral c)
 | .masked v m=>some (.masked v m)
 | .maskedNot v m=>some (.maskedNot v m)
 | .any=>some .any
 | .wordChar=>some .wordChar
 | .nonWordChar=>some .nonWordChar
 | .space=>some .space
 | .nonSpace=>some .nonSpace
 | .digit=>some .digit
 | .nonDigit=>some .nonDigit
 | .cls k=>some (.cls k)
 | .start=>some .atStart
 | .stop=>some .atEnd
 | .boundary=>some .boundary
 | .nonBoundary=>some .nonBoundary
 | .gap lo hi g=>some (.gap (lo%65536) (hi%65536) g)
 | _=>none
def emitLeaf (m:Mode)(anchor:Nat)(n:Node)(e:Emission):Option Nat×Emission:=
 match leaf? n with
 | some i=>
  let first:=e.address
  let e:=e.push i
  (some first,if n.anchors=1 then e.note m anchor first else e)
 | none=>(none,e)

/-! The stages of emitting a repetition: the first copy of the body, the loop, the branch and the last
copy. -/
section
variable (body:Mode→Emission→Except ResultCode (Option Nat×Emission))(m:Mode)(lo hi:Nat)
 (greedy:Bool)(e:Emission)
def emitProlog:Except ResultCode (Option Nat×Emission):=
 if lo>0 then body m e else pure (none,e)
def emitLoop:Except ResultCode Emission:=
 if Node.hasLoop lo hi then do
  let loop:=e.address
  let e:=e.push (.repeatStart greedy (Node.loopLow lo hi) (Node.loopHigh lo hi) 0)
  let inside:=e.address
  let (_,e) ← body {m with setForward:=false,setBackward:=false} e
  -- The distance is compared without a sign, so that a body without code counts as too large.
  if e.address=inside then .error .regularExpressionTooLarge
  let distance:Int:=inside-e.address
  let e:=e.push (.repeatEnd greedy (Node.loopLow lo hi) (Node.loopHigh lo hi) distance)
  pure (e.setDistance loop (e.address-loop))
 else pure e
def emitBranch:Except ResultCode Emission:=if hi>lo then e.pushSplit greedy 0 else pure e
def emitEpilog:Except ResultCode (Option Nat×Emission):=
 if Node.hasEpilog lo hi then body (if lo>0 then {m with setForward:=false} else m) e
 else pure (none,e)
def aimBranch (branch:Nat):Except ResultCode Emission:=
 if hi>lo then do
  let on ← distanceOn branch e.address
  pure (e.setDistance branch on)
 else pure e
def emitRange:Except ResultCode (Option Nat×Emission):=do
 let (first,e) ← emitProlog body m lo e
 let loop:=e.address
 let e ← emitLoop body m lo hi greedy e
 let branch:=e.address
 let e ← emitBranch lo hi greedy e
 let (last,e) ← emitEpilog body m lo hi e
 let e ← aimBranch lo hi e branch
 pure (if lo>0 then first else if Node.hasLoop lo hi then some loop else last,e)
end
mutual
/-- Emits the code of a pattern with `anchor` anchors to the left of it. The first component is the address of the
first instruction, if there is one. -/
def emit (m:Mode)(anchor:Nat):Node→Emission→Except ResultCode (Option Nat×Emission)
 | .cat parts,e=>emitList m anchor parts e
 | .plus greedy body,e=>do
  let (first,e) ← emit m anchor body e
  let back ← distanceBack e.address first
  pure (first,← e.pushSplit (!greedy) back)
 | .star greedy body,e=>do
  let first:=e.address
  let e ← e.pushSplit greedy 0
  let (_,e) ← emit m anchor body e
  let back ← distanceBack e.address (some first)
  let e:=e.push (.jump back)
  let on ← distanceOn first e.address
  pure (some first,e.setDistance first on)
 | .alt left right,e=>do
  let first:=e.address
  let e ← e.pushSplit true 0
  let (_,e) ← emit m anchor left e
  let jump:=e.address
  let e:=e.push (.jump 0)
  let on ← distanceOn first e.address
  let e:=e.setDistance first on
  let (_,e) ← emit m (anchor+left.anchors) right e
  let on ← distanceOn jump e.address
  pure (some first,e.setDistance jump on)
 | .range lo hi greedy body,e=>emitRange (fun m e=>emit m anchor body e) m lo hi greedy e
 | n,e=>pure (emitLeaf m anchor n e)
def emitList (m:Mode)(anchor:Nat):List Node→Emission→Except ResultCode (Option Nat×Emission)
 | [],e=>pure (none,e)
 | n::ns,e=>
  if m.backwards then do
   let (later,e) ← emitList m (anchor+n.anchors) ns e
   let (first,e) ← emit m anchor n e
   pure (if ns.isEmpty then first else later,e)
  else do
   let (first,e) ← emit m anchor n e
   let (_,e) ← emitList m (anchor+n.anchors) ns e
   pure (first,e)
end
end Emission
def Pattern.emit (p:Pattern)(backwards:Bool)(code:Code)(entries:Array Entry):
 Except ResultCode (Code×Array Entry):=do
 let (_,e) ← Emission.emit ⟨backwards,true,true⟩ 0 p.root ⟨code,0,entries⟩
 pure (e.code.push .accept,e.entries)
def Pattern.noEntries (p:Pattern):Array Entry:=Array.replicate p.root.anchors ⟨none,none⟩
end PatternScan.Regex
