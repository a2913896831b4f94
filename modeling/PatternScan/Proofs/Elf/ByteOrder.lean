import PatternScan.Module.Elf
import PatternScan.Proofs.Module.Reports
/-! Both byte orders say the same, if the links of the symbols are small enough. -/
namespace PatternScan
open List Object Elf.Format List.cons
variable {i c k:Nat}{d':Bytes}
namespace Elf
/-- The numbers of a record whose fields have the given lengths. -/
def record (big:Bool)(d:Bytes):Nat→List Nat→List Nat
 | _,[]=>[]
 | i,n::fields=>d.word big i n::record big d (i+n) fields
abbrev Alike (d d':Bytes)(i:Nat)(fields:List Nat):Prop:=record true d' i fields=record false d i fields
def headerFields (w:Nat):List Nat:=[2,2,4,w,w,w,4,2,2,2,2,2,2]
def sectionFields (w:Nat):List Nat:=[4,4,w,w,w,w,4,4,w,w]
def segmentFields (w:Nat):List Nat:=if w==8 then [4,4,8,8,8,8,8,8] else [4,4,4,4,4,4,4,4]
def symbolFields (w:Nat):List Nat:=if w==8 then [4,1,1,2,8,8] else [4,4,4,1,1,2]
section
variable {w:Nat}{d:Bytes}
lemma Alike.header (hw:w=4∨w=8)(h:Alike d d' 16 (headerFields w)):
 Header.read ⟨w,true⟩ d'=Header.read ⟨w,false⟩ d:=by
 obtain rfl|rfl:=hw
 all_goals
  simp only[Alike,record,headerFields,injEq]at h
  simp[Header.read,half,address,h]
lemma Alike.sectionAt (hw:w=4∨w=8)(h:Alike d d' i (sectionFields w)):
 sectionAt ⟨w,true⟩ d' i=sectionAt ⟨w,false⟩ d i:=by
 obtain rfl|rfl:=hw
 all_goals
  simp only[Alike,record,sectionFields,injEq,Nat.add_assoc]at h
  simp[Elf.sectionAt,word,address,Nat.add_assoc,h]
lemma Alike.segmentAt (hw:w=4∨w=8)(h:Alike d d' i (segmentFields w)):
 segmentAt ⟨w,true⟩ d' i=segmentAt ⟨w,false⟩ d i:=by
 obtain rfl|rfl:=hw
 all_goals
  simp[Alike,record,segmentFields,add_assoc]at h
  simp[Elf.segmentAt,word,address,add_assoc,h]
lemma Alike.symbolAt (hw:w=4∨w=8){s st:Nat}(h:Alike d d' i (symbolFields w))
 (ht:textAt? d' s st (d.word false i 4)=textAt? d s st (d.word false i 4)):
 symbolAt ⟨w,true⟩ d' s st i=symbolAt ⟨w,false⟩ d s st i:=by
 have hb (b:Bool)(d:Bytes)(k:Nat):d.word b k 1=(d.byteAt k).toNat:=by cases b<;>simp[Bytes.word,Bytes.be,Bytes.le]
 obtain rfl|rfl:=hw
 all_goals
  simp[Alike,record,symbolFields,add_assoc,hb]at h
  simp[Elf.symbolAt,word,address,half,add_assoc,h,ht]
end
section
variable (w:Nat)(d:Bytes)
abbrev little:Format:=⟨w,false⟩
def head:Header:=Header.read ⟨w,false⟩ d
def sectionOf (k:Nat):Section:=
 sectionAt ⟨w,false⟩ d ((head w d).sectionOffset+k*(little w).sectionSize)
def segmentOf (k:Nat):Segment:=
 segmentAt ⟨w,false⟩ d ((head w d).segmentOffset+k*(little w).segmentSize)
abbrev sectionPlaces:List Nat:=
 places (head w d).sectionOffset (little w).sectionSize (head w d).sectionCount
abbrev segmentPlaces:List Nat:=
 places (head w d).segmentOffset (little w).segmentSize (head w d).segmentCount

/-- A link of symbols is below the number of sections if it is below this number read with the least significant byte
first. -/
abbrev LinksAgree (d':Bytes):Prop:=∀k<(head w d).sectionCount,let s:=sectionOf w d k
  s.type=2∨s.type=11→(s.link<d'.le (36+3*w) 2↔s.link<(head w d).sectionCount)
end
/-- Two files with the same numbers at the same places, in opposite byte orders, and with the same texts. -/
structure Mirrored (w:Nat)(d d':Bytes):Prop where
 size:d'.size=d.size
 formats:ofBytes? d=some ⟨w,false⟩∧ofBytes? d'=some ⟨w,true⟩
 header:Alike d d' 16 (headerFields w)
 sections:∀k<(head w d).sectionCount,
  Alike d d' ((head w d).sectionOffset+k*(little w).sectionSize) (sectionFields w)
 segments:∀k<(head w d).segmentCount,
  Alike d d' ((head w d).segmentOffset+k*(little w).segmentSize) (segmentFields w)
 symbols:∀k<(head w d).sectionCount,let s:=sectionOf w d k
  s.type=2∨s.type=11→∀j<s.size/(little w).symbolSize,let i:=s.offset+j*(little w).symbolSize
   Alike d d' i (symbolFields w)∧(s.link<(head w d).sectionCount→let t:=sectionOf w d s.link
    textAt? d' t.offset (t.offset+t.size) (d.word false i 4)=textAt? d t.offset (t.offset+t.size) (d.word false i 4))
 dynamic:∀k<(head w d).segmentCount,let s:=segmentOf w d k
  s.type=2→∀j,s.offset+j*(2*w)+2*w≤d.size→(∀m<j,d.le (s.offset+m*(2*w)) w≠0)→
   Alike d d' (s.offset+j*(2*w)) [w,w]
 names:∀k<(head w d).sectionCount,let start:=(sectionOf w d (head w d).nameSection).offset
  textAt? d' start d.size (sectionOf w d k).nameIndex=textAt? d start d.size (sectionOf w d k).nameIndex
lemma sectionSize_big (w:Nat):(mk w true).sectionSize=(little w).sectionSize:=rfl
lemma segmentSize_big (w:Nat):(mk w true).segmentSize=(little w).segmentSize:=rfl
lemma symbolSize_big (w:Nat):(mk w true).symbolSize=(little w).symbolSize:=rfl
lemma mem_places {s size:Nat}:i∈places s size c↔∃k<c,i=s+k*size:=by simp[places,eq_comm]
lemma width_cases {d:Bytes}{f:Format}(h:ofBytes? d=some f):f.width=4∨f.width=8:=by
 simp only[ofBytes?]at h
 grind
namespace Mirrored
variable {w:Nat}{d:Bytes}(m:Mirrored w d d')
include m
lemma width:w=4∨w=8:=width_cases m.formats.1
lemma header_eq:Header.read ⟨w,true⟩ d'=head w d:=m.header.header m.width
lemma section_eq (hk:k<(head w d).sectionCount):
 sectionAt ⟨w,true⟩ d' ((head w d).sectionOffset+k*(Format.mk w true).sectionSize)=sectionOf w d k:=
 (m.sections k hk).sectionAt m.width
lemma segment_eq (hk:k<(head w d).segmentCount):
 segmentAt ⟨w,true⟩ d' ((head w d).segmentOffset+k*(Format.mk w true).segmentSize)=segmentOf w d k:=
 (m.segments k hk).segmentAt m.width
lemma sectionAt_eq (hi:i∈sectionPlaces w d):sectionAt ⟨w,true⟩ d' i=sectionAt ⟨w,false⟩ d i:=by
 obtain⟨k,hk,rfl⟩:=mem_places.1 hi
 exact m.section_eq hk
lemma segmentAt_eq (hi:i∈segmentPlaces w d):segmentAt ⟨w,true⟩ d' i=segmentAt ⟨w,false⟩ d i:=by
 obtain⟨k,hk,rfl⟩:=mem_places.1 hi
 exact m.segment_eq hk
lemma fileOffset?_eq (address:Nat):
 fileOffset? ⟨w,true⟩ d' (head w d) address=fileOffset? ⟨w,false⟩ d (head w d) address:=by
 have hin (l:List (Nat×Nat×Nat)):offsetIn? ⟨w,true⟩ address l=offsetIn? ⟨w,false⟩ address l:=by
  induction l with
  | nil=>rfl
  | cons r l ih=>simp only[offsetIn?,ih]
 simp only[fileOffset?,table?,m.size,hin,sectionSize_big,segmentSize_big]
 split
 ·split
  ·simp only[Option.bind_none]
  ·exact congrArg (offsetIn? _ _) (map_congr_left fun i hi=>by rw[m.segmentAt_eq hi])
 ·split
  ·simp only[Option.bind_none]
  ·exact congrArg (offsetIn? _ _) (filterMap_congr fun i hi=>by rw[m.sectionAt_eq hi])
lemma sectionName?_eq (hk:k<(head w d).sectionCount):
 sectionName? d' (sectionOf w d (head w d).nameSection) (sectionOf w d k)=
 sectionName? d (sectionOf w d (head w d).nameSection) (sectionOf w d k):=by
 simp only[sectionName?,m.size]
 split
 ·rfl
 ·exact m.names k hk
def named (w:Nat)(d:Bytes):List Section:=
 (range (head w d).sectionCount).map fun k =>
  {sectionOf w d k with name:=sectionName? d (sectionOf w d (head w d).nameSection) (sectionOf w d k)}
lemma symbolsOf?_eq {ty:Nat}(hty:ty=2 ∨ ty=11)(hl:LinksAgree w d d'):
 symbolsOf? ⟨w,true⟩ d' (head w d) ty (named w d)=symbolsOf? ⟨w,false⟩ d (head w d) ty (named w d):=by
 have hn {s:Section} (hs:s∈named w d):∃k<(head w d).sectionCount,s.type=(sectionOf w d k).type∧
  s.link=(sectionOf w d k).link ∧ s.offset=(sectionOf w d k).offset ∧ s.size=(sectionOf w d k).size:=by
  obtain⟨k,hk,rfl⟩:=mem_map.1 hs
  exact⟨k,mem_range.1 hk,rfl,rfl,rfl,rfl⟩
 have hlm:d.le (36+3*w) 2=(head w d).sectionCount:=by
  simp only[head,Header.read,half,Bytes.word,Bool.false_eq_true,if_false,show 30+3*w+2*3=36+3*w by omega]
 -- A link that counts leads to one of the sections, which is the same in both files.
 have hte:∀s∈named w d,textsOf? ⟨w,true⟩ d' (head w d) ty s=textsOf? ⟨w,false⟩ d (head w d) ty s:=by
  intro s hs
  obtain⟨k,hk,hki,hli,-⟩:=hn hs
  simp only[textsOf?,sectionSize_big,m.size,hlm]
  by_cases hs:s.type=ty
  ·have hl:=hl k hk (by rw[←hki,hs];exact hty)
   rw[←hli]at hl
   by_cases hin:s.link<(head w d).sectionCount
   ·have hse:=m.section_eq hin
    rw[sectionSize_big]at hse
    simp only[hse,hin,hl.2 hin]
    rfl
   ·simp[hin,mt hl.1 hin]
  ·simp[hs]
 rw[symbolsOf?,symbolsOf?,filterMap_congr fun s hs=>congrArg (Option.map (Prod.mk s)) (hte s hs)]
 cases hla:((named w d).filterMap fun s=>(textsOf? ⟨w,false⟩ d (head w d) ty s).map (Prod.mk s)).getLast? with
 | none=>rfl
 | some p=>
  obtain⟨s,hs,hp⟩:=mem_filterMap.1 (mem_of_getLast? hla)
  obtain⟨t,ht,rfl⟩:=Option.map_eq_some_iff.1 hp
  obtain⟨k,hk,hki,hln,ho,hsi⟩:=hn hs
  simp only[textsOf?,hlm,Option.ite_none_right_eq_some,Bool.and_eq_true,beq_iff_eq,decide_eq_true_eq,
   Option.some.injEq]at ht
  obtain⟨⟨⟨⟨hs,hli⟩,-⟩,-⟩,rfl⟩:=ht
  simp only[m.size,symbolSize_big]
  split
  ·next hf=>
   simp only[Bool.and_eq_true,decide_eq_true_eq]at hf
   refine congrArg some (map_congr_left fun i hi=>?_)
   obtain⟨j,hj,rfl⟩:=mem_places.1 hi
   rw[hsi]at hj
   rw[ho]
   rw[hln]at hli⊢
   obtain⟨hlk,htx⟩:=m.symbols k hk (by rw[←hki,hs];exact hty) j hj
   exact hlk.symbolAt m.width (htx hli)
  ·rfl
lemma dynamicFrom_eq (hk:k<(head w d).segmentCount)(ht:(segmentOf w d k).type=2)(n:Nat):
 ∀j,(∀i<j,d.le ((segmentOf w d k).offset+i*(2*w)) w≠0)→
 dynamicFrom ⟨w,true⟩ d' n ((segmentOf w d k).offset+j*(2*w))=
 dynamicFrom ⟨w,false⟩ d n ((segmentOf w d k).offset+j*(2*w)):=by
 induction n with
 | zero=>exact fun _ _=>rfl
 | succ n ih=>
  intro j hj
  by_cases he:d.size<(segmentOf w d k).offset+j*(2*w)+2*w
  ·simp[dynamicFrom,dynamicSize,m.size,he]
  have hl:=m.dynamic k hk ht j (Nat.le_of_not_lt he) hj
  simp only[Alike,record,injEq]at hl
  obtain⟨hta,hv,-⟩:=hl
  have hn:(segmentOf w d k).offset+j*(2*w)+2*w=(segmentOf w d k).offset+(j+1)*(2*w):=by ring
  simp only[dynamicFrom,address,dynamicSize,m.size,hta,hv,hn]
  by_cases hz:d.word false ((segmentOf w d k).offset+j*(2*w)) w=0
  ·simp[hz]
  ·rw[ih (j+1) fun i hi=>?_]
   obtain hi|rfl:=Nat.lt_succ_iff_lt_or_eq.1 hi
   ·exact hj i hi
   ·exact hz
end Mirrored
def File.big (w:Nat)(x:File):File:={x with format:=⟨w,true⟩}
namespace Mirrored
variable {w:Nat}{d:Bytes}(m:Mirrored w d d'){x:File}(hformat:x.format=⟨w,false⟩)(hhdr:x.header=head w d)
include m hformat
lemma withDynamic_eq (hk:k<(head w d).segmentCount):
 (x.big w).withDynamic d' (segmentOf w d k)=(x.withDynamic d (segmentOf w d k)).big w:=by
 have he:=fun ht=>m.dynamicFrom_eq hk ht d.size 0 nofun
 simp only[zero_mul,add_zero]at he
 simp only[File.withDynamic,File.big,hformat,m.size]
 split
 ·next ht=>rw[he (by simpa using ht)]
 ·rfl
include hhdr
lemma withSections_eq (hli:LinksAgree w d d'):(x.big w).withSections d'=(x.withSections d).big w:=by
 simp only[File.withSections,File.big,hformat,hhdr,sectionSize_big,m.size]
 split
 ·next hin=>
  simp only[Bool.and_eq_true,decide_eq_true_eq]at hin
  have hn:=m.section_eq hin.1.1.2
  rw[sectionSize_big]at hn
  have hl:(sectionPlaces w d).map (fun i=>{sectionAt ⟨w,false⟩ d i with
    name:=sectionName? d (sectionOf w d (head w d).nameSection) (sectionAt ⟨w,false⟩ d i)})=named w d:=by
   rw[sectionPlaces,places,map_map]
   rfl
  have hb:(sectionPlaces w d).map (fun i=>{sectionAt ⟨w,true⟩ d' i with
    name:=sectionName? d' (sectionOf w d (head w d).nameSection) (sectionAt ⟨w,true⟩ d' i)})=named w d:=by
   rw[←hl]
   refine map_congr_left fun i hi=>?_
   obtain⟨k,hk,rfl⟩:=mem_places.1 hi
   rw[m.sectionAt_eq hi]
   exact congrArg (fun n=>{sectionOf w d k with name:=n}) (m.sectionName?_eq hk)
  rw[hn,hb,m.symbolsOf?_eq (.inl rfl) hli,m.symbolsOf?_eq (.inr rfl) hli,←hl]
  rfl
 ·simp only[hhdr]
lemma withSegments_eq:(x.big w).withSegments d'=(x.withSegments d).big w:=by
 have hf (l:List Segment) (hl:∀s∈l,∃k<(head w d).segmentCount,s=segmentOf w d k):∀x:File,x.format=⟨w,false⟩→
  l.foldl (fun x s=>x.withDynamic d' s) (x.big w)=(l.foldl (fun x s=>x.withDynamic d s) x).big w:=by
  induction l with
  | nil=>exact fun _ _=>rfl
  | cons s l ih=>
   intro x hx
   obtain⟨k,hk,rfl⟩:=hl s (.head _)
   rw[foldl_cons,foldl_cons,m.withDynamic_eq hx hk]
   refine ih (fun s hs=>hl s (.tail _ hs)) _ ?_
   unfold File.withDynamic
   split<;>exact hx
 have hse:(segmentPlaces w d).map (segmentAt ⟨w,true⟩ d')=(segmentPlaces w d).map (segmentAt ⟨w,false⟩ d):=
  map_congr_left fun i hi=>m.segmentAt_eq hi
 simp only[File.withSegments,File.big,hformat,hhdr,segmentSize_big,m.size]
 split
 ·rw[hse]
  have hr:=hf ((segmentPlaces w d).map (segmentAt ⟨w,false⟩ d)) (fun s hs=>by
    obtain⟨i,hi,rfl⟩:=mem_map.1 hs
    obtain⟨k,hk,rfl⟩:=mem_places.1 hi
    exact⟨k,hk,rfl⟩)
  exact hr ⟨⟨w,false⟩,_,_,_,_,_,_,_,_⟩ rfl
 ·simp only[hhdr]
end Mirrored
/-- Two files with the same numbers and texts are read as the same file, but for the order. -/
lemma Mirrored.read?_eq {w:Nat}{d:Bytes}(m:Mirrored w d d')(hl:LinksAgree w d d')
 (mm:Bool)(b:UInt64):File.read? d' mm b=(File.read? d mm b).map (File.big w):=by
 have hk (x:File):(x.withSections d).format=x.format∧(x.withSections d).header=x.header:=by
  simp only[File.withSections]
  split<;>exact⟨rfl,rfl⟩
 have hw (entry:Option UInt64):
  ((File.mk ⟨w,true⟩ (head w d) entry [] none none [] [] none).withSections d').withSegments d'=
  (((File.mk ⟨w,false⟩ (head w d) entry [] none none [] [] none).withSections d).withSegments d).big w:=by
  rw[←m.withSegments_eq (hk _).1 (hk _).2,←m.withSections_eq rfl rfl hl]
  rfl
 simp only[File.read?,m.formats,m.header_eq,m.fileOffset?_eq]
 change _=Option.map (File.big w) (if (mm&&(head w d).type != 2) then none else _)
 split
 ·rfl
 ·exact congrArg some (hw _)
end Elf
namespace Module.Elf
open PatternScan.Elf
/-- Reading a file with the most significant bytes first gives what the same file gives with the least significant
bytes first. -/
theorem byte_order_transparent {w:Nat} {d d':Bytes} (m:Mirrored w d d')
 (hlinks:LinksAgree w d d')
 (memory:Bool) (base:UInt64) :
 load (File.read? d' memory base)=load (File.read? d memory base) ∧
 ∀f,call f (File.read? d' memory base)=call f (File.read? d memory base) := by
 rw[m.read?_eq hlinks]
 rcases File.read? d memory base with _|x
 ·exact⟨rfl,fun _=>rfl⟩
 ·exact⟨rfl,fun f=>by cases f<;>rfl⟩
def written (big:Bool)(fields values:List Nat):List UInt8:=
 (fields.zip values).flatMap fun (n,v)=>
  let bytes:=(range n).map fun k=>UInt8.ofNat (v >>> (8*k))
  if big then bytes.reverse else bytes
def sample (big:Bool)(count:Nat):Bytes:=Bytes.ofList
 ([127,69,76,70,1,if big then 2 else 1,1,0,0,0,0,0,0,0,0,0] ++
  written big (headerFields 4) [3,8,1,0,172,52,0,52,32,1,40,count,0] ++
  written big (sectionFields 4) [1,3,0,0,220,3,0,0,1,0] ++
  written big (sectionFields 4) [1,2,0,0,204,16,2,0,4,16] ++
  written big (sectionFields 4) [1,3,0,0,220,3,0,0,1,0] ++
  written big (segmentFields 4) [1,0,0,0,236,236,5,4] ++
  written big (symbolFields 4) [1,4096,5,18,0,1]++[0,97,0])
lemma sample_mirrored (hc:c=2∨c=3):Mirrored 4 (sample false c) (sample true c):=by
 obtain rfl|rfl:=hc
 all_goals exact {
  size:=by decide +kernel
  formats:=by decide +kernel
  header:=by decide +kernel
  sections:=by decide +kernel
  segments:=by decide +kernel
  symbols:=by decide +kernel
  dynamic:=fun k hk ht=>absurd ht (by revert k;decide +kernel)
  names:=by decide +kernel }
theorem byte_order_transparent_sample :
 load (File.read? (sample true 3) false 0)=load (File.read? (sample false 3) false 0)∧
 ((File.read? (sample true 3) false 0).bind File.symbols).map List.length=some 1:=
 ⟨(byte_order_transparent (sample_mirrored (.inr rfl)) (by decide +kernel) false 0).1,by decide +kernel⟩
lemma load_symbols (f:File):(load (some f)).member? "symtab_entries"=some (f.symbols.elim .noInteger (.ofNat ·.length)):=by
 simp only[load,Option.elim,fill,fillSymbols]
 generalize ho:declarations.setMembers _=o
 have hde:o.member? "symtab_entries"=some .noInteger:=by
  rw[←ho,member?_setMembers]
  rfl
 cases f.symbols<;>cases f.dynamicSymbols <;>
 simp[member?_setMembers,member?_modifyMember,member?_setMember,lookup_cons,hde]

/-- A link behind the last of two sections counts if the most significant byte of their number comes first. -/
theorem link_behind_sections :
 Mirrored 4 (sample false 2) (sample true 2) ∧
 (load (File.read? (sample false 2) false 0)).member? "symtab_entries"=some .noInteger ∧
 (load (File.read? (sample true 2) false 0)).member? "symtab_entries"=some (.ofNat 1) := by
 have hread {d:Bytes} {n:Option Nat} (h:(File.read? d false 0).map (·.symbols.map List.length)=some n):
  (load (File.read? d false 0)).member? "symtab_entries"=some (n.elim .noInteger .ofNat):=by
  obtain⟨f,hf,rfl⟩:=Option.map_eq_some_iff.mp h
  rw[hf,load_symbols]
  cases f.symbols<;>rfl
 exact⟨sample_mirrored (.inl rfl),hread (n:=none) (by decide +kernel),hread (n:=some 1) (by decide +kernel)⟩
end Module.Elf
end PatternScan