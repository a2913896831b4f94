import PatternScan.Module.Dotnet
import PatternScan.Proofs.Module.Reports
import PatternScan.Proofs.Pe.Matching
/-! The user strings of a program: the contents of the entries of their heap, with which the walk over it stays in step. -/
namespace PatternScan
open Option List Object Pe
open Bytes (lt_size_of_cons prefix_parts)
namespace Dotnet
/-- Bytes that stand for a length: one, two or four of them, the most significant one first, with the number of bytes in the
first bits. -/
def Compressed:List UInt8→Nat→Prop
 | [a],n=>a.toNat<128∧n=a.toNat
 | [a,b],n=>128≤a.toNat∧a.toNat<192∧n=a.toNat%64*256+b.toNat
 | [a,b,c,e],n=>192≤a.toNat∧a.toNat<224∧n=((a.toNat%32*256+b.toNat)*256+c.toNat)*256+e.toNat
 | _,_=>False

/-- An entry of the heap of user strings: its length, its content, and a last byte that the length counts. -/
structure UserEntry where
 code:List UInt8
 content:List UInt8
 last:UInt8
 length_eq:Compressed code (content.length+1)
 last_le:last.toNat≤1
def UserEntry.bytes (e:UserEntry):List UInt8:=e.code++e.content++[e.last]

/-- The bytes of an entry, or a zero byte that fills the heap. -/
def itemBytes (o:Option UserEntry):List UInt8:=o.elim [0] UserEntry.bytes
def itemText? (o:Option UserEntry):Option Bytes:=
 o.bind fun e=>if e.content=[] then none else some (.ofList e.content)
lemma Metadata.file_eq {f:File}{m:Metadata}(h:find? f=some m):m.file=f:=by
 simp only[find?]at h
 repeat' split at h
 all_goals first | cases h;rfl | cases h
section
variable {d:Bytes}{i stop:Nat}
lemma heapEntry?_eq {cd:List UInt8}{n:Nat}(hc:cd <+: d.list.drop i)(hn:Compressed cd n)(hp:0<n)
 (hr:i+cd.length+n≤d.size): heapEntry? d i=some (i+cd.length,n):=by
 match cd,hn with
 | [a],⟨ha,hn⟩=>
  obtain⟨-,hb,-⟩:=lt_size_of_cons hc
  simp only[length_singleton]at hr
  simp[ heapEntry?,hb,ha,hn]
  omega
 | [a,b],⟨ha,ha',hn⟩=>
  obtain⟨-,hb,hc⟩:=lt_size_of_cons hc
  obtain⟨-,hb',-⟩:=lt_size_of_cons hc
  simp only[length_cons,length_nil]at hr
  simp[ heapEntry?,hb,hb',ha',not_lt.2 ha]
  omega
 | [a,b,c,e],⟨ha,ha',hn⟩=>
  obtain⟨-,hb,hc⟩:=lt_size_of_cons hc
  obtain⟨-,hb',hc⟩:=lt_size_of_cons hc
  obtain⟨-,hby2,hc⟩:=lt_size_of_cons hc
  obtain⟨-,hby3,-⟩:=lt_size_of_cons hc
  simp only[length_cons,length_nil]at hr
  have:=b.toNat_lt
  have:=c.toNat_lt
  have:=e.toNat_lt
  simp[ heapEntry?,hb,show ¬a.toNat<128 by omega,show ¬a.toNat<192 by omega,ha',Bytes.be,Nat.fold,hb',hby2,hby3]
  omega

/-- A byte zero or one is passed over, as an entry without content. At the end of the file it ends the walk. -/
lemma userTexts_step (hst:stop ≤ d.size)(hi:i<stop)(hb:(d.byteAt i).toNat ≤ 1):
 userTexts d stop i=userTexts d stop (i+1):=by
 have hs:(d.byteAt i).toNat<128:=by omega
 rw[userTexts,if_pos hi]
 split
 ·next hn=>
  rw[userTexts,if_neg]
  simp[ heapEntry?,hs]at hn
  omega
 ·next s length hso=>
  simp[ heapEntry?,hs]at hso
  rw[if_neg (by omega),hso.2.1]
lemma userTexts_entry (hst:stop ≤ d.size)(e:UserEntry)(he:e.bytes <+: d.list.drop i)(hend:i+e.bytes.length ≤ stop):
 userTexts d stop i=(itemText? (some e)).toList++userTexts d stop (i+e.bytes.length):=by
 obtain⟨hf,hl⟩:=prefix_parts he
 obtain⟨hco,hc⟩:=prefix_parts hf
 obtain⟨-,hb,-⟩:=lt_size_of_cons hl
 simp only[UserEntry.bytes,length_append,length_singleton]at hend hb⊢
 have hne:e.code≠[]:=fun h=>by simpa[h,Compressed]using e.length_eq
 have hp:=length_pos_iff.2 hne
 have hen:=heapEntry?_eq hco e.length_eq (Nat.succ_pos _) (by omega)
 have hn:=userTexts_step hst (i:=i+(e.code.length+e.content.length)) (by omega) (by rw[hb];exact e.last_le)
 rw[userTexts,if_pos (by omega)]
 split
 ·next hno=>
  rw[hen]at hno
  cases hno
 next s length hs=>
 rw[hen]at hs
 cases hs
 rw[Nat.add_sub_cancel,add_assoc i]
 by_cases hem:e.content=[]
 ·simp[hem,itemText?]at hn⊢
  exact hn
 have hle:=length_pos_iff.2 hem
 have hsl:d.slice (i+e.code.length) e.content.length=.ofList e.content:=by
  refine ByteArray.ext (Array.ext' ?_)
  change Bytes.list _=_
  rw[Bytes.slice,Bytes.list_extract,drop_take,Nat.add_sub_cancel_left,←prefix_iff_eq_take.1 hc]
  rfl
 rw[if_pos (by omega),hsl,hn]
 simp[itemText?,hem,add_assoc]

/-- The walk stays in step with the items, whatever their lengths. -/
lemma userTexts_items (hs:stop≤d.size)(items:List (Option UserEntry))(h:items.flatMap itemBytes <+: d.list.drop i)
 (he:i+(items.flatMap itemBytes).length=stop):userTexts d stop i=items.filterMap itemText?:=by
 induction items generalizing i with
 | nil=>
  rw[userTexts,if_neg (by simp at he;omega)]
  rfl
 | cons o items ih=>
  rw[flatMap_cons]at h he
  obtain⟨hf,hr⟩:=prefix_parts h
  rw[length_append,←add_assoc]at he
  have hn:=ih hr he
  cases o with
  | none=>
   obtain⟨-,hb,-⟩:=lt_size_of_cons hf
   rw[userTexts_step hs (by simp[itemBytes]at he;omega) (by rw[hb];decide)]
   exact hn
  | some e=>
   rw[userTexts_entry hs e hf (by simp only[itemBytes,Option.elim]at he;omega)]
   simp only[itemBytes,Option.elim]at hn
   rw[hn,filterMap_cons]
   cases itemText? (some e)<;>rfl
end
end Dotnet
namespace Module.Dotnet
open PatternScan.Dotnet
section
variable {α:Type}{array count key:String}{make:α→Object→Object}{items:List α}{o:Object}
lemma member?_fillCounted (ha:array≠key)(hc:count≠key):(fillCounted array count make items o).member? key=o.member? key:=by
 rw[fillCounted,member?_setMember,if_neg hc,member?_modifyMember,if_neg ha]
lemma member?_fillSome (h:∀a o,(make a o).member? key=o.member? key)(x:Option α):
 (fillSome make x o).member? key=o.member? key:=by
 cases x with
 | none=>rfl
 | some a=>exact h a o
end
lemma member?_fillContents {key:String}(hk:key="user_strings" ∨ key="number_of_user_strings")(t:TableContents)(o:Object):
 (fillContents t o).member? key=o.member? key:=by
 rcases hk with rfl|rfl <;>
 simp[fillContents,member?_fillSome,member?_fillCounted,fillTexts,fillResources,fillAssembly,member?_setMembers,
  member?_modifyMember,member?_setMember,lookup_cons]
def userText? (report:Object)(k:Nat):Option Bytes:=
 ((report.member? "user_strings").bind fun a=>a.item? k).bind text?
lemma load_userTexts {f:File}{m:Metadata}(hm:Metadata.find? f=some m){t:List Bytes}
 (h:(Program.ofMetadata m).userTexts=some t):
 (load (some f)).member? "number_of_user_strings"=some (.ofNat t.length)∧∀k:Nat,userText? (load (some f)) k=t[k]?:=by
 obtain⟨o,ho,hl,hc⟩:∃o,load (some f)=fillTexts "user_strings" "number_of_user_strings" t o∧
  o.member? "user_strings"=some (.arrayOf .noText)∧(o.member? "number_of_user_strings").isSome:=by
  simp only[load,hm,fillProgram]
  rw[h]
  refine⟨_,rfl,?_,?_⟩ <;>
  simp only[member?_fillSome (member?_fillContents (.inl rfl)),member?_fillSome (member?_fillContents (.inr rfl))] <;>
  simp[member?_fillSome,member?_fillCounted,member?_setMember] <;>
  rfl
 obtain⟨n,hc⟩:=isSome_iff_exists.1 hc
 have hme:(load (some f)).member? "number_of_user_strings"=some (.ofNat t.length)∧
  (load (some f)).member? "user_strings"=some ((arrayOf .noText).withMade (t.map fun b _=>.ofBytes b)):=by
  simp[ho,fillTexts,fillCounted,member?_setMember,member?_modifyMember,hc,hl]
 refine⟨hme.1,fun k=>?_⟩
 rw[userText?,hme.2,bind_some,item?_withMade,getElem?_map]
 cases t[k]?<;>rfl

/-- The user strings are the contents of the entries that are not empty, in their order, if the heap consists of a zero byte
and of entries and zero bytes in any order. -/
theorem user_strings_reported {f:PatternScan.Pe.File} {m:Metadata} (hm:Metadata.find? f=some m) {streams:List Stream}
 (hstreams:m.streams?=some streams) {s:Stream} (hs:streams.find? (·.isNamed ["#US"])=some s)
 (hfits:s.offset+s.size ≤ f.size) {items:List (Option UserEntry)}
 (hheap:(f.data.list.drop s.offset).take s.size=0::items.flatMap itemBytes) :
 let texts:=items.filterMap itemText?
 (load (some f)).member? "number_of_user_strings"=some (.ofNat texts.length) ∧
 ∀k:Nat,userText? (load (some f)) k=texts[k]? := by
 refine load_userTexts hm ?_
 have hf:m.file=f:=Metadata.file_eq hm
 obtain⟨hlt,hz,hr⟩:=lt_size_of_cons (hheap▸ take_prefix _ _)
 have hl:=congrArg length hheap
 rw[length_take,length_drop,Bytes.length_list,length_cons]at hl
 simp only[Pe.File.size]at hfits
 have hfi':f.fits s.offset s.size=true:=decide_eq_true hfits
 have hw:=userTexts_items hfits items hr (by omega)
 simp only[Program.ofMetadata,hstreams,hf,getD_some,hs,bind_some]
 rw[userTexts?,hfi',hz,beq_false_of_ne (by omega:s.size≠0)]
 simpa using hw

/-- Two entries, the first one with a last byte that is read as an entry with one byte, and an empty one between them. -/
def sampleItems:List (Option UserEntry):=
 [some ⟨[3],[100,0],1,⟨by decide,rfl⟩,by decide⟩,some ⟨[1],[],0,⟨by decide,rfl⟩,by decide⟩,none,
  some ⟨[0x80,3],[101,0],1,⟨by decide,by decide,rfl⟩,by decide⟩]
def sampleProgram:File:=.sample 14 [File.words ([72,0,384]++replicate 15 0++[0x424a5342,0,0,4,0,0x10000,36,13,0x535523]),
 .ofList (0::sampleItems.flatMap itemBytes++replicate 16 0)]
theorem user_strings_reported_two : userText? (load (some sampleProgram)) 1=some (.ofList [101,0]) ∧
 (load (some sampleProgram)).member? "number_of_user_strings"=some (.ofNat 2) := by
 have hp:(((Metadata.find? sampleProgram).bind (·.streams?)).bind (·.find? (·.isNamed ["#US"]))).map
  (fun s=>(s.offset,s.size))=some (420,13):=by decide +kernel
 obtain⟨s,hs,hp⟩:=map_eq_some_iff.1 hp
 obtain⟨streams,hst,hs⟩:=bind_eq_some_iff.1 hs
 obtain⟨m,hm,hst⟩:=bind_eq_some_iff.1 hst
 obtain⟨ho,hsi⟩:=Prod.mk.inj hp
 have hh:(sampleProgram.data.list.drop s.offset).take s.size=0::sampleItems.flatMap itemBytes:=by
  rw[ho,hsi]
  decide +kernel
 have h:=user_strings_reported hm hst hs (by rw[ho,hsi];decide +kernel) hh
 exact⟨(h.2 1).trans (by decide +kernel),h.1⟩
end Module.Dotnet
end PatternScan