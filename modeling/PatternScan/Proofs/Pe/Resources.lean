import Mathlib.Data.List.Basic
import Mathlib.Data.List.GetD
import PatternScan.Pe.Resource
/-! The walk over the resources visits the entries of a tree of directories in order. -/
namespace PatternScan.Pe
open List
variable {d dir:Nat}{ns:List Int}
namespace File
variable (f:File)(root:Nat)
def tree:Nat→Nat→List ResourceEntry→List ResourceVisit
 | 0,dir,path=>((f.entriesAt dir).filter (·.target != 0)).map (⟨path,·⟩)
 | depth+1,dir,path=>
  ((f.entriesAt dir).filter (·.target != 0)).flatMap fun e=>
   ⟨path,e⟩::if e.isDirectory then tree depth (root+e.offset) (path++[e]) else []

/-- A directory that can be read, in which no entry that leads somewhere comes after one that does not. -/
def Readable (dir:Nat):Prop:=
 f.word dir=0∧f.half (dir+12)≤32768∧f.half (dir+14)≤32768∧
 f.fits dir (16+8*(f.half (dir+12)+f.half (dir+14)))∧
 (f.entriesAt dir).Pairwise fun a b=>a.target=0→b.target=0
deriving Decidable
def Sound:Nat→Nat→Prop
 | 0,dir=>f.Readable dir∧∀e∈f.entriesAt dir,e.target≠0→e.isDirectory=false
 | depth+1,dir=>f.Readable dir∧∀e∈f.entriesAt dir,e.target≠0→e.isDirectory→
  root+e.offset≠dir∧Sound depth (root+e.offset)
instance soundDecidable:∀depth dir,Decidable (f.Sound root depth dir)
 | 0,dir=>inferInstanceAs (Decidable (f.Readable dir∧∀e∈f.entriesAt dir,_))
 | depth+1,dir=>
  have:=soundDecidable depth
  inferInstanceAs (Decidable (f.Readable dir∧∀e∈f.entriesAt dir,_))
end File
lemma takeWhile_eq_filter {l:List ResourceEntry}(h:l.Pairwise fun a b=>a.target=0→b.target=0):
 l.takeWhile (·.target != 0)=l.filter (·.target != 0):=by
 induction l with
 | nil=>rfl
 | cons a l ih=>
  obtain⟨ha,hl⟩:=pairwise_cons.1 h
  by_cases hz:a.target=0
  ·have hn:l.filter (·.target != 0)=[]:=filter_eq_nil_iff.2 fun b hb=>by simp[ha b hb hz]
   simp[hz,hn]
  ·simp[hz,ih hl]
namespace File
variable {f:File}{root:Nat}
lemma Readable.resourceEntries {dir:Nat}(h:f.Readable dir):
 f.resourceEntries dir=(f.entriesAt dir).filter (·.target != 0):=by
 obtain⟨hz,hna,hn,hf,hl⟩:=h
 have hr:f.fits (dir+16) (8*(f.half (dir+12)+f.half (dir+14))):=by
  simp only[fits,decide_eq_true_eq]at hf⊢
  omega
 rw[File.resourceEntries,if_neg,takeWhile_eq_filter hl]
 simp[hz,hr,hna,hn]
lemma Sound.readable (h:f.Sound root d dir):f.Readable dir:=by cases d<;>exact h.1
lemma Sound.visits_eq (h:f.Sound root d dir)(path:List ResourceEntry):
 f.visits root d dir path=f.tree root d dir path:=by
 induction d generalizing dir path with
 | zero=>rw[visits,tree,h.readable.resourceEntries]
 | succ _ ih=>
  rw[visits,h.readable.resourceEntries]
  refine flatMap_congr fun e he=>?_
  obtain⟨he,hz⟩:=mem_filter.1 he
  cases hd:e.isDirectory with
  | false=>rfl
  | true=>
   obtain⟨hne,hb⟩:=h.2 e he (by simpa using hz) hd
   have hf:f.fits (root+e.offset) 16:=by
    have hf:=hb.readable.2.2.2.1
    simp only[fits,decide_eq_true_eq]at hf⊢
    omega
   simp[hne,hf,ih hb]
end File
/-! ## Numbers -/
namespace ResourceVisit
def numbers (v:ResourceVisit):List Int:=v.way.map (·.number)
def pass (ns:List Int)(vs:List ResourceVisit):List Int:=
 vs.foldl (fun ns v=>ns.set v.level v.entry.number) ns
def Apt:List Int→List ResourceVisit→Prop
 | _,[]=>True
 | ns,v::vs=>v.level<ns.length∧v.path.map (·.number) <+: ns∧Apt (ns.set v.level v.entry.number) vs
lemma length_pass (ns:List Int)(vs:List ResourceVisit):(pass ns vs).length=ns.length:=by
 induction vs generalizing ns with
 | nil=>rfl
 | cons v _ ih=>exact (ih _).trans (length_set ..)
lemma Apt.append {us vs:List ResourceVisit}(hu:Apt ns us)(hv:Apt (pass ns us) vs):
 Apt ns (us++vs):=by
 induction us generalizing ns with
 | nil=>exact hv
 | cons u _ ih=>exact⟨hu.1,hu.2.1,ih hu.2.2 hv⟩
lemma numbers_prefix_set {v:ResourceVisit}(hl:v.level<ns.length)
 (h:v.path.map (·.number) <+: ns):v.numbers <+: ns.set v.level v.entry.number:=by
 obtain⟨t,rfl⟩:=h
 have hle:(v.path.map (·.number)).length=v.level:=length_map ..
 rw[set_append_right _ _ (Nat.le_of_eq hle),hle,numbers,way]
 cases t with
 | nil=>simp[hle]at hl
 | cons x t=>exact⟨t,by simp⟩
def Follows (path:List ResourceEntry)(vs:List ResourceVisit):Prop:=
 ∀ns:List Int,ns.length=3→path.map (·.number) <+: ns→Apt ns vs∧path.map (·.number) <+: pass ns vs
lemma Follows.flatMap {p:List ResourceEntry}{g:ResourceEntry→List ResourceVisit}
 (hg:∀e,Follows p (g e))(es:List ResourceEntry):Follows p (es.flatMap g):=by
 induction es with
 | nil=>exact fun ns _ h=>⟨trivial,h⟩
 | cons e es ih=>
  intro ns hns h
  obtain⟨ha,hp⟩:=hg e ns hns h
  obtain⟨hr,he⟩:=ih _ ((length_pass ns _).trans hns) hp
  rw[flatMap_cons]
  refine⟨ha.append hr,?_⟩
  rwa[pass,foldl_append]
end ResourceVisit
namespace File
open ResourceVisit
variable {f:File}{root:Nat}
lemma visits_follows (d:Nat):∀dir p,p.length+d=2→Follows p (f.visits root d dir p):=by
 have ho {p:List ResourceEntry} (e:ResourceEntry) {vs:List ResourceVisit} (hp:p.length<3)
  (hvs:Follows (p++[e]) vs):Follows p (⟨p,e⟩::vs):=by
  intro ns hns h
  have hn:=numbers_prefix_set (v:=⟨p,e⟩) (show p.length<ns.length by omega) h
  obtain⟨ha,hpa⟩:=hvs _ ((length_set ..).trans hns) hn
  refine⟨⟨by rw[hns];exact hp,h,ha⟩,IsPrefix.trans ?_ hpa⟩
  rw[map_append]
  exact prefix_append _ _
 have hni (p:List ResourceEntry):Follows p []:=fun ns _ h=>⟨trivial,h⟩
 induction d with
 | zero=>
  intro dir p hp
  rw[visits,map_eq_flatMap]
  exact .flatMap (fun e=>ho e (by omega) (hni _)) _
 | succ _ _=>
  intro dir p hp
  refine .flatMap (fun e=>ho e (by omega) ?_) _
  grind

/-- Each resource is found once and with the labels of its way, if none comes after an entry of a deeper level. -/
lemma found_collect (l:List ResourceVisit):∀w:ResourceWalk,Apt w.numbers l→
 l.Pairwise (fun u v=>f.isResource root v→u.level≤v.level)→
 (∀v∈l,f.isResource root v→∀k,v.level<k→w.numbers.getD k (-1)=-1)→
 (l.foldl (f.collect root) w).found.reverse=w.found.reverse ++
  ((l.filter (f.isResource root)).take (resourceLimit-w.count)).map fun v=>f.resourceAt root v v.numbers:=by
 induction l with
 | nil=>simp
 | cons v l ih=>
  intro w ha hle hf
  obtain⟨hv,hl⟩:=pairwise_cons.1 hle
  obtain⟨hlv,hp,ha⟩:=ha
  have ho:=numbers_prefix_set hlv hp
  have hre (w':ResourceWalk)(hw:w'.numbers=w.numbers.set v.level v.entry.number):=
   ih w' (by rwa[hw]) hl fun u hu hr k hk=>by
    have:=hv u hu hr
    rw[hw,getD_eq_getElem?_getD,getElem?_set_ne (by omega)]
    exact hf u (mem_cons_of_mem _ hu) hr k hk
  rw[foldl_cons]
  by_cases hr:f.isResource root v
  ·have hgetD (k:Nat):(w.numbers.set v.level v.entry.number).getD k (-1)=v.numbers.getD k (-1):=by
    have hln:v.numbers.length=v.level+1:=by simp[numbers,way,level]
    by_cases hk:k<v.numbers.length
    ·obtain⟨t,ht⟩:=ho
     rw[←ht,getD_append _ _ _ _ hk]
    grind
   rw[filter_cons_of_pos hr]
   by_cases hcn:w.count<resourceLimit
   ·have hc:f.collect root w v=⟨w.numbers.set v.level v.entry.number,w.count+1,
     f.resourceAt root v v.numbers::w.found⟩:=by
     simp only[collect,hr,hcn,resourceAt,hgetD]
     rfl
    rw[hc,hre _ rfl,show resourceLimit-w.count=resourceLimit-(w.count+1)+1 by omega]
    simp
   ·rw[collect,if_neg (by simp[hcn]),hre _ rfl,Nat.sub_eq_zero_of_le (Nat.le_of_not_lt hcn)]
    simp
  ·rw[collect,if_neg (by simp[hr]),hre _ rfl,filter_cons_of_neg hr]

/-- The resources of a tree of directories: each entry that leads to readable data of an admissible size, in
order, with the labels on its way. -/
theorem resources_eq_tree (hroot:f.resourceRoot?.map (·.offset)=some root) (hsound:f.Sound root 2 root)
 (hlevels:(f.tree root 2 root []).Pairwise fun u v=>f.isResource root v → u.level ≤ v.level) :
 f.visits root 2 root []=f.tree root 2 root [] ∧
 f.resources=(((f.tree root 2 root []).filter (f.isResource root)).take resourceLimit).map
  fun v=>f.resourceAt root v v.numbers := by
 obtain⟨r,hr,rfl⟩:=Option.map_eq_some_iff.mp hroot
 have hvisits:=hsound.visits_eq []
 have hapt:=(@visits_follows f r.offset 2 r.offset [] rfl [-1,-1,-1] rfl nil_prefix).1
 rw[hvisits]at hapt
 have hfnd:=found_collect _ {} hapt hlevels fun v _ _ k _=>by
  rcases k with _|_|_|k<;>rfl
 refine⟨hvisits,?_⟩
 simp only[resources,hr,hvisits,hfnd]
 rfl
def sample (k:Nat)(contents:List Bytes):File:=
 (read? (Bytes.concat ([⟨#[77,90]⟩,Bytes.replicate 58 0,⟨#[64,0,0,0,80,69,0,0]⟩,
  Bytes.replicate (116+8*k) 0,⟨#[56,1,0,0,0,1,0,0]⟩,Bytes.replicate (120-8*k) 0]++contents))).getD default
def words (l:List Nat):Bytes:=l.foldl (fun b n=>b.pushLe n 4) ByteArray.empty
def folder (entries:List (Nat×Nat)):Bytes:=
 words ([0,0,0,65536*entries.length]++entries.flatMap fun (name,target)=>[name,target])
theorem resources_eq_tree_one :
 let f:=sample 2 [folder [(1,0x80000018)],folder [(5,0x80000030)],folder [(7,80),(0,0)],words [0,4,0,0]]
 f.resources.map (·.id.number?)=[some 5]:=by
 intro f
 rw[(@resources_eq_tree f 312 (by decide +kernel) (by decide +kernel)
  (by decide +kernel)).2]
 decide +kernel

/-- Behind an entry that leads nowhere no resource is found, and data at the root of the tree get the name of a
resource before them. -/
theorem resources_ne_tree :
 let labels (f:File) (vs:List ResourceVisit):=
  (vs.filter (f.isResource 312)).map fun v=>(f.resourceAt 312 v v.numbers).id.number?
 let gap:=sample 2 [folder [(0,0),(1,0x80000020)],folder [(5,0x80000038)],folder [(7,80)],words [0,4,0,0]]
 let stale:=sample 2 [folder [(1,0x80000020),(2,96)],folder [(5,0x80000038)],folder [(7,80)],
  words [0,4,0,0],words [0,4,0,0]]
 (gap.resources.map (·.id.number?)=[]∧labels gap (gap.tree 312 2 312 [])=[some 5])∧
 stale.resources.map (·.id.number?)=[some 5,some 5]∧
 labels stale (stale.tree 312 2 312 [])=[some 5,none]:=by
 decide +kernel
end File
end PatternScan.Pe