import PatternScan.Proofs.MachO.EntryPoints
/-! Both byte orders say the same, if the sizes of the thread commands allow it. -/
namespace PatternScan
open Bytes (word)
open List MachO.File List.cons
namespace MachO
open PatternScan.Elf (Alike record)
section
variable (d:Bytes)
/-- The places at which a command is looked at, the last of which may be broken. -/
def visitedFrom:Nat→Nat→List Nat
 | 0,_=>[]
 | n+1,i=>
  if d.size< i+8 then []
  else i::if d.size-i<d.le (i+4) 4||d.le (i+4) 4<8 then [] else visitedFrom n (i+d.le (i+4) 4)
def first:Nat:=if is32 (d.be 0 4) then 28 else 32
def visited:List Nat:=visitedFrom d (min (d.le 16 4) (d.size/8)) (first d)
variable (d':Bytes)(w i:Nat)
/-- Two segments with the same numbers and names, and with the same sections. -/
abbrev AlikeSegments:Prop:=
 nameAt d' (i+8)=nameAt d (i+8)∧Alike d d' (i+24) [w,w,w,w,4,4,4,4]∧
 ∀j< min (d.le (i+32+4*w) 4) ((d.le (i+4) 4-segmentSize w)/sectionSize w),let k:=i+segmentSize w+j*sectionSize w
  nameAt d' k=nameAt d k∧nameAt d' (k+16)=nameAt d (k+16)∧
  Alike d d' (k+32) ([w,w]++replicate (if w==8 then 8 else 7) 4)

/-- The numbers of a command that matter for its type are the same. -/
abbrev AlikeCommands:Prop:=
 Alike d d' i [4,4]∧
 (d.le i 4=1→i+segmentSize 4≤d.size→AlikeSegments d d' 4 i)∧
 (d.le i 4=0x19→i+segmentSize 8≤d.size→AlikeSegments d d' 8 i)∧
 (d.le i 4=5→∀t∈threadState? (d.le 4 4),i+16+t.size≤d.size→Alike d d' (i+16+t.counter) [t.width])∧
 (d.le i 4=0x80000028→i+24≤d.size→Alike d d' (i+8) [8,8])

/-- Two files with the same numbers at the same places, in opposite byte orders, and with the same names. -/
structure Mirrored:Prop where
 size:d'.size=d.size
 magic:d.be 0 4=0xCEFAEDFE∧d'.be 0 4=0xFEEDFACE∨d.be 0 4=0xCFFAEDFE∧d'.be 0 4=0xFEEDFACF
 header:Alike d d' 4 (replicate (if is32 (d.be 0 4) then 6 else 7) 4)
 commands:∀i∈visited d,AlikeCommands d d' i

/-- A thread command has room for the state of its processor if it has room with the bytes of its size swapped. -/
abbrev RoomAgrees:Prop:=∀i∈visited d,d.le i 4=5→∀t∈threadState? (d.le 4 4),
 (16+t.size≤d'.le (i+4) 4↔16+t.size≤d.le (i+4) 4)
end
variable {d d':Bytes}{w i:Nat}
lemma AlikeSegments.segmentAt? (hw:w=4 ∨ w=8)(hsi:d'.size=d.size)(hh:Alike d d' i [4,4])
 (h:i+segmentSize w ≤ d.size → AlikeSegments d d' w i):segmentAt? d' true w i=segmentAt? d false w i:=by
 have hp:segmentSize w=40+4*w:=rfl
 simp only[MachO.segmentAt?,hsi]
 split
 ·rfl
 ·next hf=>
  obtain⟨hna,hn,hse⟩:=h (by omega)
  have hsc:∀j< min (d.le (i+32+4*w) 4) ((d.le (i+4) 4-segmentSize w)/sectionSize w),
   sectionAt d' true w (i+segmentSize w+j*sectionSize w)=sectionAt d false w (i+segmentSize w+j*sectionSize w):=by
   intro j hj
   obtain⟨hna,hs,hn⟩:=hse j hj
   generalize i+segmentSize w+j*sectionSize w=k at hna hs hn⊢
   obtain rfl|rfl:=hw
   all_goals
    simp[Alike,record,replicate,add_assoc]at hn
    simp[sectionAt,hna,hs,hn,add_assoc]
  simp only[Alike,record,injEq]at hh
  obtain rfl|rfl:=hw
  all_goals
   simp[Alike,record,add_assoc]at hn
   simp[hna,hn,hh,add_assoc]
   exact fun j hc hr=>by simpa only[add_assoc]using hsc j (lt_min hc hr)
lemma AlikeCommands.threadStart? (h:AlikeCommands d d' i)(hsi:d'.size=d.size)(hty:d.le i 4=5)
 (hl:8≤d.le (i+4) 4)(hh:d.le (i+4) 4 ≤ d.size-i)
 (hr:∀t∈threadState? (d.le 4 4),(16+t.size ≤ d'.le (i+4) 4 ↔ 16+t.size ≤ d.le (i+4) 4)):
 threadStart? d' true (d.le 4 4) i=threadStart? d false (d.le 4 4) i:=by
 have hlt:=d.le_lt (i+4) 4
 have hlt':=d'.le_lt (i+4) 4
 simp only[MachO.threadStart?,hsi]
 rw[Nat.mod_eq_of_lt (by omega),Nat.mod_eq_of_lt (by omega),min_eq_right hh]
 cases ht:threadState? (d.le 4 4) with
 | none=>simp
 | some t=>
  have ha:=hr t ht
  have hnu:=h.2.2.2.1 hty t ht
  simp only[Alike,record,injEq,and_true]at hnu
  by_cases hin:16+t.size ≤ d.le (i+4) 4
  ·have hin':=ha.2 hin
   rw[if_neg (by simp;omega),if_neg (by simp;omega)]
   dsimp only
   rw[if_neg (by omega),if_neg (by omega),hnu (by omega)]
  have ho:=mt ha.1 hin
  have hn {x:Nat} {o:Option Nat} (hx:x<16+t.size):(if (decide (d.size-i<16) || decide (x<16))=true then none
   else if x-16<t.size then none else o)=none:=by
   split
   ·rfl
   ·next hs=>
    simp only[Bool.or_eq_true,decide_eq_true_eq,not_or]at hs
    exact if_pos (by omega)
  exact (hn (by omega)).trans (hn (by omega)).symm
lemma mem_commandsFrom {n i j:Nat}(h:j∈commandsFrom d false n i):
 j∈visitedFrom d n i∧8≤d.le (j+4) 4∧d.le (j+4) 4≤d.size-j:=by
 induction n generalizing i with
 | zero=>cases h
 | succ n ih=>
  simp only[commandsFrom,word,Bool.false_eq_true,if_false]at h
  split at h
  ·cases h
  next hg=>
  simp only[Bool.or_eq_true,decide_eq_true_eq,not_or,not_lt]at hg
  obtain⟨⟨hf,hr⟩,hl⟩:=hg
  have hgo:¬(d.size-i<d.le (i+4) 4||d.le (i+4) 4<8)=true:=by simp;omega
  rw[visitedFrom,if_neg (by omega),if_neg hgo]
  obtain rfl|h:=mem_cons.1 h
  ·exact⟨.head _,hl,hr⟩
  ·obtain⟨hv,hs⟩:=ih h
   exact⟨.tail _ hv,hs⟩
namespace Mirrored
variable (m:Mirrored d d')
include m
lemma commandsFrom_eq {n i:Nat}(hin:∀j∈visitedFrom d n i,AlikeCommands d d' j):
 commandsFrom d' true n i=commandsFrom d false n i:=by
 induction n generalizing i with
 | zero=>rfl
 | succ n ih=>
  simp only[commandsFrom,m.size]
  by_cases hf:d.size< i+8
  ·simp[hf]
  rw[visitedFrom,if_neg hf]at hin
  have hn:=(hin i (.head _)).1
  simp only[Alike,record,injEq]at hn
  rw[hn.2.1]
  split
  ·rfl
  next hg=>
  refine congrArg (i::·) (ih fun j hj=>hin j (.tail _ ?_))
  rw[if_neg]
  ·exact hj
  ·simp only[Bool.or_eq_true,decide_eq_true_eq,not_or]at hg⊢
   exact⟨hg.1.2,hg.2⟩
lemma is32_eq:is32 (d'.be 0 4)=is32 (d.be 0 4)∧isBig (d'.be 0 4)=true∧isBig (d.be 0 4)=false:=by
 obtain⟨h,h'⟩|⟨h,h'⟩:=m.magic<;>rw[h,h']<;>decide
lemma header_eq:d'.be 4 4=d.le 4 4∧d'.be 8 4=d.le 8 4∧d'.be 12 4=d.le 12 4∧d'.be 16 4=d.le 16 4∧
 d'.be 20 4=d.le 20 4∧d'.be 24 4=d.le 24 4∧(is32 (d.be 0 4)=false→d'.be 28 4=d.le 28 4):=by
 have h:=m.header
 cases hw:is32 (d.be 0 4)<;>simp[hw,Alike,record,replicate,word]at h⊢ <;> exact h
lemma start_eq (hr:RoomAgrees d d')(mm:Bool)(b:UInt64){f:File}(hcp:f.cpuType=d.le 4 4)
 (hi:i∈commandsFrom d false (min (d.le 16 4) (d.size/8)) (first d)):
 start d' true mm b f i=start d false mm b f i:=by
 obtain⟨hv,hl,hhi⟩:=mem_commandsFrom hi
 have hc:=m.commands i hv
 have hh:=hc.1
 simp only[Alike,record,injEq]at hh
 unfold start
 rw[hh.1]
 split
 ·next ht=>rw[hcp,AlikeCommands.threadStart? hc m.size ht hl hhi (hr i hv ht)]
 ·next ht=>
  have hm:=hc.2.2.2.2 ht
  simp only[Alike,record,injEq]at hm
  simp only[m.size]
  split
  ·rfl
  ·rw[(hm (by omega)).1,(hm (by omega)).2.1]
 ·rfl
end Mirrored
def File.marked (magic:Nat)(f:File):File:={f with magic:=magic}
lemma File.start_marked (d:Bytes)(big mm:Bool)(b:UInt64)(f:File)(i mg:Nat):
 start d big mm b (f.marked mg) i=(start d big mm b f i).marked mg∧
 (start d big mm b f i).cpuType=f.cpuType:=by
 unfold start
 split
 ·simp only[marked]
  split<;>exact⟨rfl,rfl⟩
 ·simp only[marked]
  split<;>exact⟨rfl,rfl⟩
 ·exact⟨rfl,rfl⟩

/-- Two files with the same numbers and names are read as the same file, but for the magic. -/
lemma Mirrored.read?_eq (m:Mirrored d d')(hro:RoomAgrees d d')(mm:Bool)(b:UInt64):
 read? d' mm b=(read? d mm b).map (marked (d'.be 0 4)):=by
 obtain⟨h32,hb,hli⟩:=m.is32_eq
 obtain⟨h1,h2,h3,h4,h5,h6,h7⟩:=m.header_eq
 have hcm:commandsFrom d' true (min (d.le 16 4) (d.size/8)) (first d)=
  commandsFrom d false (min (d.le 16 4) (d.size/8)) (first d):=m.commandsFrom_eq m.commands
 have hfo (l:List Nat) (hl:∀i∈l,i∈commandsFrom d false (min (d.le 16 4) (d.size/8)) (first d)):∀f:File,
  f.cpuType=d.le 4 4→l.foldl (start d' true mm b) (f.marked (d'.be 0 4))=
   (l.foldl (start d false mm b) f).marked (d'.be 0 4):=by
  induction l with
  | nil=>exact fun _ _=>rfl
  | cons i l ih=>
   intro f hf
   obtain⟨hm,hcp⟩:=start_marked d false mm b f i (d'.be 0 4)
   rw[foldl_cons,foldl_cons,m.start_eq hro mm b (f:=f.marked (d'.be 0 4)) hf (hl i (.head _)),hm]
   exact ih (fun i hi=>hl i (.tail _ hi)) _ (hcp.trans hf)
 unfold read?
 rw[m.size]
 split
 ·rfl
 have hr:(if is32 (d.be 0 4) then none else some (d'.be 28 4))=if is32 (d.be 0 4) then none
  else some (d.le 28 4):=by
  cases hw:is32 (d.be 0 4) with
  | true=>rfl
  | false=>rw[h7 hw]
 have hru (l:List (Option Segment)):=hfo _ (fun _ hi=>hi) ⟨d.be 0 4,d.le 4 4,d.le 8 4,d.le 12 4,d.le 16 4,
  d.le 20 4,d.le 24 4,if is32 (d.be 0 4) then none else some (d.le 28 4),l,none,none⟩ rfl
 simp only[first]at hcm hru
 simp only[hb,hli,h32,word,Nat.reduceMul,if_true,Bool.false_eq_true,if_false,h1,h2,h3,h4,h5,h6,hr]
 rw[hcm]
 refine congrArg some (Eq.trans ?_ (hru _))
 -- The files that the commands start from differ in the magic only.
 refine congrArg (fun l=>foldl _ (File.mk _ _ _ _ _ _ _ _ l none none) _) (filterMap_congr fun i hi=>?_)
 have hc:=m.commands i (mem_commandsFrom hi).1
 have hh:=hc.1
 simp only[Alike,record,injEq,word,if_true,Bool.false_eq_true,if_false]at hh
 rw[hh.1]
 split
 ·next ht=>rw[AlikeSegments.segmentAt? (.inl rfl) m.size hc.1 (hc.2.1 ht)]
 ·next ht=>rw[AlikeSegments.segmentAt? (.inr rfl) m.size hc.1 (hc.2.2.1 ht)]
 ·rfl
end MachO
namespace Module.MachO
open PatternScan.MachO
/-- Reading a file with the most significant bytes first gives what the same file gives with the least significant
bytes first, for all members but the magic. -/
theorem byte_order_alike {d d':Bytes}(m:Mirrored d d')(hroom:RoomAgrees d d')(memory:Bool)(base:UInt64):
 let x:=(Image.read? d memory base).getD .nothing
 let x':=(Image.read? d' memory base).getD .nothing
 (∀key≠"magic",(load x').member? key=(load x).member? key) ∧ ∀g c,call g x' c=call g x c:=by
 intro x x'
 have hmagic:isFileMagic (d.be 0 4)=true∧isFileMagic (d'.be 0 4)=true:=by
  obtain⟨h,h'⟩|⟨h,h'⟩:=m.magic<;>rw[h,h']<;>decide
 simp only[x,x',Image.read?,m.size,hmagic,if_true,m.read?_eq hroom]
 split
 ·exact⟨fun _ _=>rfl,fun _ _=>rfl⟩
 ·cases File.read? d memory base with
  | none=>exact⟨fun _ _=>rfl,fun _ _=>rfl⟩
  | some f=>
   refine⟨fun key hkey=>?_,fun _ _=>rfl⟩
   have hother:(key=="magic")=false:=beq_false_of_ne hkey
   simp only[Option.map_some,Option.elim,Option.getD_some,load,fillFile,Object.member?_modifyMember,
    Object.member?_setMembers,File.marked]
   simp[lookup_cons,hother]
def sample (big:Bool)(size:Nat):Bytes:=
 let numbers n:=Elf.written big (replicate n 4)
 Bytes.ofList (numbers 9 [0xFEEDFACE,7,3,2,2,56+size,0,1,56]++replicate 16 97 ++
  numbers 30 ([4096,256,0,256,7,5,0,0,5,size,1,16]++replicate 10 0++[4112]++replicate 5 0))
set_option synthInstance.maxSize 512 in
lemma sample_mirrored {s:Nat}(hs:s=16∨s=80):Mirrored (sample false s) (sample true s):=by
 obtain rfl|rfl:=hs
 all_goals exact⟨by decide +kernel,by decide +kernel,by decide +kernel,by decide +kernel⟩
lemma load_entryPoint {d:Bytes}{n:Option UInt64}
 (h:(Image.read? d false 0).map (fun | .file f=>some f.entryPoint | _=>none)=some (some n)):
 (load ((Image.read? d false 0).getD .nothing)).member? "entry_point"=some (optional (n.map UInt64.toNat)):=by
 obtain⟨x,hx,hn⟩:=Option.map_eq_some_iff.mp h
 rw[hx,Option.getD_some]
 cases x with
 | file f=>
  cases hn
  simp only[load,fillFile,Object.member?_modifyMember,Object.member?_setMembers]
  rfl
 | fat f=>cases hn
 | nothing=>cases hn
theorem byte_order_alike_thread :
 (load ((Image.read? (sample true 80) false 0).getD .nothing)).member? "entry_point"=some (.ofNat 16):=by
 rw[(byte_order_alike (sample_mirrored (.inr rfl)) (by decide +kernel) false 0).1 _ (by decide)]
 exact load_entryPoint (n:=some 16) (by decide +kernel)

/-- A thread command without a state has an entry point if the most significant byte of its size comes first. -/
theorem short_thread_read :
 Mirrored (sample false 16) (sample true 16) ∧
 (load ((Image.read? (sample false 16) false 0).getD .nothing)).member? "entry_point"=some .noInteger ∧
 (load ((Image.read? (sample true 16) false 0).getD .nothing)).member? "entry_point"=some (.ofNat 16):=
 ⟨sample_mirrored (.inl rfl),load_entryPoint (n:=none) (by decide +kernel),
  load_entryPoint (n:=some 16) (by decide +kernel)⟩
end Module.MachO
end PatternScan