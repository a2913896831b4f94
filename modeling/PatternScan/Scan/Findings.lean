import PatternScan.LinkedList
import PatternScan.Rule.RuleSet
/-! The matches of a string are kept in the order of their positions, with at most one at each position. -/
namespace PatternScan.Scan
open Array ChainLink
structure Match where
 base:Int64
 offset:Nat
 length:Nat
 block:Bytes
 start:Nat
 shown:Int
 key:UInt8:=0
 hidden:Bool:=false
 /-- For a part of a string: how many of the parts after it are known to follow. -/
 followers:Nat:=0
deriving Inhabited
namespace Match
def position (m:Match):Int64:=m.base+Int64.ofNat m.offset
def stop (m:Match):Nat:=m.offset+m.length
def data (m:Match)(n:Nat):Bytes:=m.block.slice m.start (min n m.shown.toNat)
end Match
abbrev MatchList:=LinkedList Match
namespace MatchList

/-- The cell behind which a position belongs, looked for from a cell on to the front, and whether it is the position of
this cell. -/
def place (l:MatchList)(position:Int64):Nat→Option Nat→Option Nat×Bool
 | n+1,some k=>
  let p:=(l.get k).position
  if position==p then (some k,true)
  else if p<position then (some k,false)
  else place l position n (l.cell k).prev
 | _,_=>(none,false)
theorem place_spec (l:MatchList)(position:Int64)(n:Nat){xs ys:List Nat}(hk:l.keys=xs++ys)(hn:xs.length ≤ n):
 ∃xs₁ xs₂,xs=xs₁++xs₂∧(l.place position n xs.getLast?).1=xs₁.getLast?∧
  (∀k∈xs₂,position<(l.get k).position)∧
  if (l.place position n xs.getLast?).2 then ∃k∈xs₁.getLast?,(l.get k).position=position
  else ∀k∈xs₁.getLast?,(l.get k).position<position:=by
 induction n generalizing xs ys with
 | zero=>
  obtain rfl:xs=[]:=List.length_eq_zero_iff.1 (by omega)
  exact⟨[],[],rfl,rfl,nofun,nofun⟩
 | succ n ih=>
  rcases List.eq_nil_or_concat xs with rfl|⟨xs,k,rfl⟩
  ·exact⟨[],[],rfl,rfl,nofun,nofun⟩
  rw[List.concat_eq_append]at hk hn⊢
  rw[List.getLast?_concat,place]
  split
  ·next heq=>
   refine⟨xs++[k],[],(List.append_nil _).symm,List.getLast?_concat.symm,nofun,k,List.getLast?_concat,?_⟩
   exact (beq_iff_eq.1 heq).symm
  next hne=>
  split
  ·next hlt=>
   refine⟨xs++[k],[],(List.append_nil _).symm,List.getLast?_concat.symm,nofun,?_⟩
   rw[List.getLast?_concat]
   rintro _ ⟨⟩
   exact hlt
  next hle=>
  have hs:=l.linked.segment
  rw[hk,List.append_assoc,Links.segment_append]at hs
  have hp:(l.cell k).prev=xs.getLast?:=by simpa using hs.2.2.1
  rw[hp]
  rw[List.append_assoc]at hk
  obtain⟨xs₁,xs₂,rfl,hpl,ha,hb⟩:=ih hk (by simpa using hn)
  refine⟨xs₁,xs₂++[k],by rw[List.append_assoc],hpl,?_,hb⟩
  grind
theorem place_splits (l:MatchList)(position:Int64):
 ∃xs ys,l.keys=xs++ys∧(l.place position l.count l.tail).1=xs.getLast?:=by
 obtain⟨xs,ys,hk,hp,-⟩:=l.place_spec position l.count (List.append_nil _).symm (Nat.le_of_eq l.linked.count.symm)
 rw[←l.linked.tail]at hp
 exact⟨xs,ys,hk,hp⟩
def insert (l:MatchList)(m:Match)(replace:Bool):MatchList:=
 match h:l.place m.position l.count l.tail with
 | (some k,true)=>
  if replace then
   l.modify k fun x=>{x with length:=m.length,shown:=m.shown,block:=m.block,start:=m.start}
  else l
 | (p,_)=>l.insertAfter p m (have hs:=l.place_splits m.position;by rwa[h]at hs)
end MatchList
/-! Besides the matches of every string, a scan keeps those of the parts of strings that are searched in parts. -/
structure Findings where
 confirmed:Array MatchList
 pending:Array MatchList
 required:Array Bool
 silenced:Array Bool
namespace Findings
def empty (s:RuleSet):Findings:=
 { confirmed:=replicate s.strings.size .empty
   pending:=replicate s.strings.size .empty
   required:=replicate s.rules.size false
   silenced:=replicate s.strings.size false }
def start (s:RuleSet)(f:Findings):Findings:=
 {f with required:=s.rules.map (·.required==0)}
def of (f:Findings)(string:Nat):MatchList:=f.confirmed.getD string .empty
def waiting (f:Findings)(string:Nat):MatchList:=f.pending.getD string .empty
def insertInto (lists:Array MatchList)(i:Nat)(m:Match)(replace:Bool):ResultCode×Array MatchList:=
 if (lists.getD i .empty).size==Limits.stringMatches then (.tooManyMatches,lists)
 else (.success,lists.modify i fun l=>l.insert m replace)
def confirm (f:Findings)(s:RuleString)(m:Match)(replace:Bool):ResultCode×Findings:=
 let (code,confirmed):=insertInto f.confirmed s.index m replace
 (code,{f with confirmed:=confirmed,required:=f.required.setIfInBounds s.rule true})
def wait (f:Findings)(string:Nat)(m:Match):ResultCode×Findings:=
 let (code,pending):=insertInto f.pending string m false
 (code,{f with pending:=pending})
end Findings
namespace ChainLink
def joins (l:ChainLink)(before:Match)(offset:Nat):Bool:=
 (offset:Int)≤before.stop+l.most&&(before.stop:Int)+l.least≤offset

/-- Removes the matches of the part before that are too far away to be continued, up to the first one that is
continued at an offset, and says if there is one. -/
def prune (l:ChainLink)(lowest offset:Nat):List Nat→MatchList→Bool×MatchList
 | [],before=>(false,before)
 | k::rest,before=>
  if ((before.get k).stop:Int)+l.most<lowest then prune l lowest offset rest (before.remove k)
  else if joins l (before.get k) offset then (true,before)
  else prune l lowest offset rest before
end ChainLink
def linksFrom (strings:Array RuleString):Nat→Nat→List ChainLink
 | 0,_=>[]
 | allowance+1,i=>
  match (strings.getD i default).link with
  | none=>[]
  | some l=>l::linksFrom strings allowance l.previous

/-- Notes that `n` parts follow a waiting match, and so on for those that it continues. A match that has this number
is left alone, with all that it continues. -/
def noteFollowers (pending:Array MatchList)(string k n:Nat):List ChainLink→Array MatchList
 | []=>
  pending.modify string fun l=>l.modify k fun m=>{m with followers:=n}
 | l::rest=>
  let m:=(pending.getD string .empty).get k
  if m.followers==n then pending
  else
   let pending:=pending.modify string fun l=>l.modify k fun m=>{m with followers:=n}
   (pending.getD l.previous .empty).keys.foldl (fun pending j=>
    if ChainLink.joins l ((pending.getD l.previous .empty).get j) m.offset then
     noteFollowers pending l.previous j (n+1) rest
    else pending) pending
def confirmComplete (head:RuleString)(links:Nat)(block:Bytes)(stop:Nat)(room:Int):
 List Nat→Findings→ResultCode×Findings
 | [],f=>(.success,f)
 | k::rest,f=>
  let m:=(f.waiting head.index).get k
  if m.followers==links then
   let length:=stop-m.offset
   let f:={f with pending:=f.pending.modify head.index (·.remove k)}
   let m:={ m with
    length:=length,shown:=min (length:Int) room,block:=block,start:=m.offset }
   match f.confirm head m false with
   | (.success,f)=>confirmComplete head links block stop room rest f
   | failure=>failure
  else confirmComplete head links block stop room rest f

/-- Drops the matches of the part before that are too far away from a new match, and says whether it continues one. -/
def Findings.pruneFor (f:Findings)(s:RuleString)(m:Match):Bool×Findings:=
 match s.link with
 | none=>(true,f)
 | some l=>
  let own:=f.waiting s.index
  let lowest:=own.head.elim m.offset fun k=>(own.get k).offset
  let before:=f.waiting l.previous
  let (continued,before):=ChainLink.prune l lowest m.offset before.keys before
  (continued,{f with pending:=f.pending.setIfInBounds l.previous before})

/-- Notes for the matches that a match of the last part continues how many parts follow them. -/
def Findings.noteAll (f:Findings)(l:ChainLink)(rest:List ChainLink)(offset:Nat):
 Findings:=
 { f with pending:=(f.waiting l.previous).keys.foldl (fun pending j=>
    if ChainLink.joins l ((pending.getD l.previous .empty).get j) offset then
     noteFollowers pending l.previous j 1 rest
    else pending) f.pending }
def Findings.addPart (f:Findings)(strings:Array RuleString)(s:RuleString)(m:Match)
 (room:Int):ResultCode×Findings:=
 let (continued,f):=f.pruneFor s m
 if !continued then (.success,f)
 else
  match s.flags.chainTail,linksFrom strings strings.size s.index with
  | true,l::rest=>
   let f:=f.noteAll l rest m.offset
   let head:=strings.getD ((l::rest).getLast (by simp)).previous default
   confirmComplete head (rest.length+1) m.block (m.offset+m.length) room (f.waiting head.index).keys f
  | _,_=>f.wait s.index m
end PatternScan.Scan
