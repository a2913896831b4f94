import PatternScan.Proofs.Dex.Strings
import PatternScan.Proofs.Module.Statistics
/-! The members of classes: which are counted, what is reported of them, and which are found by name. -/
namespace PatternScan
open Option List Object
variable {d:Bytes}{i:Nat}
namespace Bytes
/-- A number of 32 bits with bytes that stand for it. -/
structure Coded where
 value:Nat
 code:List UInt8
 encodes:Encodes code value
 short:code.length≤5
 lt:value<2^32
def Coded.ofByte (c:UInt8)(h:c.toNat<128):Coded:=⟨c.toNat,[c],⟨rfl,h⟩,by simp,h.trans (by decide)⟩
lemma Coded.read (c:Coded)(h:c.code <+: d.list.drop i):d.uleb128? i=some (c.value,c.code.length):=
 uleb128?_eq h c.encodes c.short c.lt
end Bytes
namespace Dex
open Bytes (Coded prefix_parts)
/-- An entry of a list of members: the difference to the index of the member before it, and more numbers. -/
structure Entry (n:Nat) where
 difference:Coded
 rest:List Coded
 size:rest.length=n
namespace Entry
variable {n:Nat}
def bytes (e:Entry n):List UInt8:=e.difference.code++e.rest.flatMap (·.code)

/-- The indices that the differences of a list add up to. -/
def indices (previous:Nat):List (Entry n)→List Nat
 | []=>[]
 | e::es=>(previous+e.difference.value)::indices (previous+e.difference.value) es
def starts (offset:Nat):List (Entry n)→List Nat
 | []=>[]
 | e::es=>offset::starts (offset+e.bytes.length) es
lemma length_indices (es:List (Entry n))(p:Nat):(indices p es).length=es.length:=by
 induction es generalizing p with
 | nil=>rfl
 | cons e es ih=>rw[indices,length_cons,ih,length_cons]
lemma starts_append (es es':List (Entry n))(offset:Nat):
 starts offset (es++es')=starts offset es++starts (offset+(es.flatMap bytes).length) es':=by
 induction es generalizing offset with
 | nil=>rfl
 | cons e es ih=>rw[cons_append,starts,starts,ih,cons_append,flatMap_cons,length_append,add_assoc]
end Entry
open Entry (indices starts starts_append)
/-- What a reader of members does with an entry that has room and whose index is known. -/
def Reads (d:Bytes)(read:Nat→Nat→Option Encoded)(n room:Nat)(ids:Array MemberId)(names:Nat→MemberNames):Prop:=
 ∀(e:Entry n)(offset previous:Nat),e.bytes <+: d.list.drop offset → offset+room≤d.size→
  (idAt? ids (previous+e.difference.value)).isSome→
  ∃m,m.names=names (previous+e.difference.value)∧
   read offset previous=some ⟨m,e.bytes.length,previous+e.difference.value,true⟩
lemma Reads.run {rd:Nat→Nat→Option Encoded}{n r:Nat}{ids:Array MemberId}{nm:Nat→MemberNames}
 (h:Reads d rd n r ids nm){es:List (Entry n)}{offset pr:Nat}(k:Array Member)
 (hes:es.flatMap Entry.bytes <+: d.list.drop offset)(hr:∀p∈starts offset es,p+r≤d.size)
 (hi:∀i∈indices pr es,(idAt? ids i).isSome):
 ∃ms:Array Member,ms.toList.map (·.names)=(indices pr es).map nm∧
  readMembers rd es.length offset pr ⟨k,none⟩=(offset+(es.flatMap Entry.bytes).length,⟨k++ms,none⟩):=by
 induction es generalizing offset pr k with
 | nil=>exact⟨#[],rfl,by simp[readMembers]⟩
 | cons e es ih=>
  obtain⟨hf,hre⟩:=prefix_parts hes
  rw[starts,forall_mem_cons]at hr
  rw[indices,forall_mem_cons]at hi
  obtain⟨m,hm,hrd⟩:=h e offset pr hf hr.1 hi.1
  obtain⟨ms,hms,hru⟩:=ih (k.push m) hre hr.2 hi.2
  refine⟨#[m]++ms,by simp[hm,hms,indices],?_⟩
  rw[length_cons,readMembers,hrd]
  dsimp only
  rw[if_pos rfl,hru,flatMap_cons,length_append,add_assoc,Array.push_eq_append,Array.append_assoc]
lemma Members.eq_known {m:Members}(h:m.pending=none):⟨m.known,none⟩=m:=by rw[←h]
lemma idAt?_eq_some {ids:Array MemberId}(h:(idAt? ids i).isSome):
 ∃id,ids[i]?=some id∧idAt? ids i=some id∧i%0x100000000=i:=by
 unfold idAt? at h⊢
 split at h
 ·cases h
 next hle=>
 obtain⟨id,hid⟩:=isSome_iff_exists.1 h
 refine⟨id,hid,by rw[if_neg hle,hid],Nat.mod_eq_of_lt ?_⟩
 rw[indexLimit]at hle
 omega
namespace File
variable {f:File}
def fieldNames (f:File)(i:Nat):MemberNames:=
 f.fieldIds[i]?.elim {} fun id=>⟨f.typeName? id.owner,f.text? id.name,f.typeName? id.type⟩
def methodNames (f:File)(i:Nat):MemberNames:=
 f.methodIds[i]?.elim {} fun id=>⟨f.typeName? id.owner,f.text? id.name,
  if indexLimit < id.type then none else (f.prototypes[id.type]?).bind fun p=>f.text? p.shorty⟩
lemma reads_field? (first:Bool):Reads f.data (f.field? first) 1 8 f.fieldIds f.fieldNames:=by
 rintro⟨a,r,hs⟩ offset previous he hr hid
 obtain⟨b,rfl⟩:=length_eq_one_iff.1 hs
 obtain⟨id,hg,hid,hm⟩:=idAt?_eq_some hid
 obtain⟨ha,hb⟩:=prefix_parts he
 rw[flatMap_singleton]at hb
 refine⟨{first:=first,difference:=a.value,access:=b.value,names:=f.fieldNames (previous+a.value)},rfl,?_⟩
 simp[field?,fits,hr,a.read ha,b.read hb,hm,hid,fieldNames,hg,Entry.bytes]
lemma reads_method? (fr:Bool):Reads f.data (f.method? fr) 2 12 f.methodIds f.methodNames:=by
 rintro⟨a,r,hs⟩ offset previous he hr hid
 obtain⟨b,c,rfl⟩:=length_eq_two.1 hs
 obtain⟨id,hg,hid,hm⟩:=idAt?_eq_some hid
 obtain⟨ha,hbc⟩:=prefix_parts he
 rw[flatMap_cons,flatMap_singleton]at hbc
 obtain⟨hb,hc⟩:=prefix_parts hbc
 simp only[add_assoc]at hg hid hm ha hb hc⊢
 refine⟨⟨fr,a.value,b.value,c.value,f.methodNames (previous+a.value),codeAt? f.data c.value⟩,rfl,?_⟩
 simp[method?,fits,hr,a.read ha,b.read hb,c.read hc,hm,hid,methodNames,hg,Entry.bytes,add_assoc]
end File
/-- The data of a class: the sizes of four lists of members, and the lists. -/
structure ClassItem where
 statics:List (Entry 1)
 instances:List (Entry 1)
 directs:List (Entry 2)
 virtuals:List (Entry 2)
 sizes:List Coded
 declared:sizes.map (·.value)=[statics.length,instances.length,directs.length,virtuals.length]
namespace ClassItem
def counts (x:ClassItem):ClassData:=⟨x.statics.length,x.instances.length,x.directs.length,x.virtuals.length⟩
def head (x:ClassItem):List UInt8:=x.sizes.flatMap (·.code)
def fields (x:ClassItem):List (Entry 1):=x.statics++x.instances
def methods (x:ClassItem):List (Entry 2):=x.directs++x.virtuals
def bytes (x:ClassItem):List UInt8:=x.head++x.fields.flatMap Entry.bytes++x.methods.flatMap Entry.bytes

/-- The indices of the fields, which start again with the second list, and those of the methods. -/
def fieldIndices (x:ClassItem):List Nat:=indices 0 x.statics++indices 0 x.instances
def methodIndices (x:ClassItem):List Nat:=indices 0 x.directs++indices 0 x.virtuals
def fieldCount (x:ClassItem):Nat:=((x.sizes.map (·.value)).take 2).sum
def methodCount (x:ClassItem):Nat:=((x.sizes.map (·.value)).drop 2).sum
lemma length_fieldIndices (x:ClassItem):x.fieldIndices.length=x.fieldCount:=by
 simp[fieldCount,x.declared,fieldIndices,Entry.length_indices]
lemma length_methodIndices (x:ClassItem):x.methodIndices.length=x.methodCount:=by
 simp[methodCount,x.declared,methodIndices,Entry.length_indices]

/-- Whether there is as much room as numbers of full length would take: at the sizes, and at each entry. -/
def Roomy (x:ClassItem)(d:Bytes)(offset:Nat):Prop:=
 offset+16≤d.size∧(∀p∈starts (offset+x.head.length) x.fields,p+8≤d.size)∧
 ∀p∈starts (offset+(x.head++x.fields.flatMap Entry.bytes).length) x.methods,p+12≤d.size
def Known (x:ClassItem)(f:File):Prop:=
 (∀i∈x.fieldIndices,(idAt? f.fieldIds i).isSome)∧∀i∈x.methodIndices,(idAt? f.methodIds i).isSome
variable {x:ClassItem}{f:File}{offset:Nat}
lemma classDataAt?_eq (hx:x.head <+: f.data.list.drop offset)(hr:offset+16≤f.data.size):
 classDataAt? f.data offset=some (x.counts,offset+x.head.length):=by
 obtain⟨s,i,m,v,sizes,hs⟩:=x
 obtain⟨a,b,c,e,rfl⟩:∃a b c e,sizes=[a,b,c,e]:=by
  match sizes,(by simpa using congrArg length hs:sizes.length=4) with
  | [a,b,c,e],_=>exact⟨a,b,c,e,rfl⟩
 simp only[map_cons,map_nil,cons.injEq,and_true]at hs
 simp only[head,flatMap_cons,flatMap_nil,append_nil]at hx
 obtain⟨ha,hx⟩:=prefix_parts hx
 obtain⟨hb,hx⟩:=prefix_parts hx
 obtain⟨hc,he⟩:=prefix_parts hx
 simp only[add_assoc]at hc he
 simp[classDataAt?,fits,hr,a.read ha,b.read hb,c.read hc,e.read he,hs,head,counts,add_assoc]
lemma withClassData_eq (hx:x.bytes <+: f.data.list.drop offset)(hr:x.Roomy f.data offset)(hk:x.Known f)
 (hfl:f.fields.pending=none)(hme:f.methods.pending=none):
 ∃fs ms,f.withClassData x.counts (offset+x.head.length)=
   {f with classData:=f.classData.push x.counts,fields:=⟨f.fields.known++fs,none⟩,methods:=⟨f.methods.known++ms,none⟩}∧
  fs.toList.map (·.names)=x.fieldIndices.map f.fieldNames∧ms.toList.map (·.names)=x.methodIndices.map f.methodNames:=by
 obtain⟨hrs,hms⟩:=prefix_parts hx
 obtain⟨-,hfs⟩:=prefix_parts hrs
 obtain⟨-,hf,hm⟩:=hr
 obtain⟨hfi,hmi⟩:=hk
 rw[fields,flatMap_append]at hfs
 rw[methods,flatMap_append]at hms
 obtain⟨hs,hi⟩:=prefix_parts hfs
 obtain⟨hdi,hv⟩:=prefix_parts hms
 rw[fields,starts_append,forall_mem_append]at hf
 rw[methods,starts_append,forall_mem_append]at hm
 rw[fieldIndices,forall_mem_append]at hfi
 rw[methodIndices,forall_mem_append]at hmi
 obtain⟨a,ha,hra⟩:=(f.reads_field? true).run f.fields.known hs hf.1 hfi.1
 obtain⟨b,hb,hrb⟩:=(f.reads_field? false).run (f.fields.known++a) hi hf.2 hfi.2
 obtain⟨c,hc,hrc⟩:=(f.reads_method? true).run f.methods.known hdi hm.1 hmi.1
 obtain⟨e,he,hre⟩:=(f.reads_method? false).run (f.methods.known++c) hv hm.2 hmi.2
 have hp:offset+x.head.length+(x.statics.flatMap Entry.bytes).length+(x.instances.flatMap Entry.bytes).length=
  offset+(x.head++x.fields.flatMap Entry.bytes).length:=by
  simp[fields,add_assoc]
 refine⟨a++b,c++e,?_,by simp[ha,hb,fieldIndices],by simp[hc,he,methodIndices]⟩
 unfold File.withClassData counts
 rw[Members.eq_known hfl]at hra
 rw[Members.eq_known hme]at hrc
 rw[hra]
 dsimp only
 rw[hrb,hp]
 dsimp only
 rw[hrc]
 dsimp only
 rw[hre,Array.append_assoc,Array.append_assoc]
end ClassItem
/-- Whether the data of the class that is defined at a place are those of an item, or missing. -/
def Defines (d:Bytes)(i:Nat):Option ClassItem→Prop
 | none=>(classAt d i).data=0
 | some x=>(classAt d i).data≠0∧x.bytes <+: d.list.drop (classAt d i).data
def classPlaces (d:Bytes):List Nat:=(range (d.le 96 4)).map fun i=>d.le 100 4+i*32

/-- Whether the tables that the header names lie in the file, and the map, if there is one. -/
def TablesInside (d:Bytes):Prop:=
 (∀t∈[(56,4),(64,4),(72,12),(80,8),(88,8),(96,32)],d.le (t.1+4) 4+d.le t.1 4*t.2≤d.size)∧
 (d.le 52 4=0∨d.size<d.le 52 4+4∨d.le 52 4+4+12*d.le (d.le 52 4) 4≤d.size)
namespace File
variable {f:File}
lemma withClasses_eq {pl:List Nat}{it:List (Option ClassItem)}(hda:f.data=d)(h:Forall₂ (Defines d) pl it)
 (hro:∀p∈pl.zip it,∀x∈p.2,x.Roomy d (classAt d p.1).data)(hk:∀x,some x∈it→x.Known f)
 (hf:f.fields.pending=none)(hm:f.methods.pending=none):
 ∃cs counts fs ms,f.withClasses pl=
   {f with classes:=cs,classData:=counts,fields:=⟨f.fields.known++fs,none⟩,methods:=⟨f.methods.known++ms,none⟩,complete:=true}∧
  fs.toList.map (·.names)=(it.flatMap (·.elim [] ClassItem.fieldIndices)).map f.fieldNames∧
  ms.toList.map (·.names)=(it.flatMap (·.elim [] ClassItem.methodIndices)).map f.methodNames:=by
 induction h generalizing f with
 | nil=>
  refine⟨f.classes,f.classData,#[],#[],?_,rfl,rfl⟩
  rw[withClasses,Array.append_empty,Array.append_empty,Members.eq_known hf,Members.eq_known hm]
 | @cons i item pl it hi _ ih=>
  rw[zip_cons_cons,forall_mem_cons]at hro
  subst hda
  cases item with
  | none=>
   obtain⟨cs,counts,fs,ms,hru,hfs,hms⟩:=@ih {f with classes:=f.classes.push (classAt f.data i)} rfl hro.2
    (fun x hx=>hk x (mem_cons_of_mem _ hx)) hf hm
   refine⟨cs,counts,fs,ms,?_,hfs,hms⟩
   rw[withClasses,if_pos (beq_iff_eq.2 hi)]
   exact hru
  | some x=>
   obtain⟨hne,hx⟩:=hi
   have hrm:=hro.1 x rfl
   obtain⟨a,b,hr,ha,hb⟩:=@ClassItem.withClassData_eq x {f with classes:=f.classes.push (classAt f.data i)} _ hx hrm
    (hk x mem_cons_self) hf hm
   obtain⟨cs,counts,fs,ms,hru,hfs,hms⟩:=@ih (File.withClassData {f with classes:=f.classes.push (classAt f.data i)} x.counts _)
    (by rw[hr]) hro.2 (fun y hy=>by rw[hr];exact hk y (mem_cons_of_mem _ hy)) (by rw[hr]) (by rw[hr])
   refine⟨cs,counts,a++fs,b++ms,?_,?_,?_⟩
   ·rw[withClasses,if_neg (by simpa using hne),ClassItem.classDataAt?_eq (prefix_parts (prefix_parts hx).1).1 hrm.1]
    refine hru.trans ?_
    rw[hr]
    simp only[Array.append_assoc]
   ·rw[hr]at hfs
    simp[ha,hfs]
    rfl
   ·rw[hr]at hms
    simp[hb,hms]
    rfl
lemma withTables_eq (h:TablesInside d):∃g:File,({data:=d}:File).withTables=(true,g)∧g.data=d∧g.fields={}∧g.methods={}:=by
 have ht:=h.1
 simp only[forall_mem_cons,not_mem_nil,false_implies,implies_true,and_true]at ht
 obtain⟨h56,h64,h72,h80,h88,-⟩:=ht
 have hr:({data:=d}:File).withTables.1=true∧({data:=d}:File).withTables.2.data=d∧
  ({data:=d}:File).withTables.2.fields={}∧({data:=d}:File).withTables.2.methods={}:=by
  simp only[withTables,table?,word,fits,h56,h64,h72,h80,h88,decide_true,if_true,and_self]
 exact⟨({data:=d}:File).withTables.2,by rw[←hr.1],hr.2⟩
lemma withMap_eq (h:TablesInside f.data):∃g:File,f.withMap=(true,g)∧g.data=f.data∧g.fields=f.fields∧g.methods=f.methods:=by
 unfold withMap word
 dsimp only
 split
 ·exact⟨f,rfl,rfl,rfl,rfl⟩
 next hm=>
 simp only[fits,Bool.or_eq_true,beq_iff_eq,Bool.not_eq_true',decide_eq_false_iff_not,not_or,not_not]at hm
 have hin:=(h.2.resolve_left hm.1).resolve_left (by omega)
 have ha:(((range (f.data.le (f.data.le 52 4) 4)).map fun i=>f.data.le 52 4+4+12*i).takeWhile fun i=>fits f.data i 12)=
  (range (f.data.le (f.data.le 52 4) 4)).map fun i=>f.data.le 52 4+4+12*i:=by
  refine takeWhile_eq_self_iff.2 fun i hi=>?_
  obtain⟨k,hk,rfl⟩:=mem_map.1 hi
  have hk:=mem_range.1 hk
  exact decide_eq_true (by omega)
 rw[if_neg (by omega),ha,length_map,length_range,beq_self_eq_true]
 exact⟨_,rfl,rfl,rfl,rfl⟩
lemma read?_classes (h:File.read? d=some f)(hd:TablesInside d):
 ∃g:File,f=g.withClasses (classPlaces d)∧g.data=d∧g.fields={}∧g.methods={}:=by
 obtain⟨g,hg,hda,hf,hm⟩:=withTables_eq hd
 obtain⟨g',hg',hda',hf',hm'⟩:=@withMap_eq g (hda▸hd)
 have hc:d.le 100 4+d.le 96 4*32≤d.size:=hd.1 (96,32) (by simp)
 unfold read? at h
 rw[hg]at h
 dsimp only at h
 rw[hg']at h
 dsimp only at h
 simp only[table?,word,hda',hda,fits,hc,decide_true,if_true]at h
 split at h
 ·cases h
 ·exact⟨g',(Option.some.inj h).symm,hda'.trans hda,hf'.trans hf,hm'.trans hm⟩
end File
end Dex
namespace Module.Dex
open PatternScan.Dex
open Condition (Environment Matcher matcherRun matchResult)
/-- The name of a method or of its class, as a rule reads it. -/
def methodText? (report:Object)(i:Nat)(key:String):Option Bytes:=(Pe.entryOf report "method" i key).bind Object.text?
lemma methodText?_load (f:File)(i:Nat):
 methodText? (load (some f)) i "name"=f.methods.toArray[i]?.bind (·.names.name)∧
 methodText? (load (some f)) i "class_name"=f.methods.toArray[i]?.bind (·.names.owner):=by
 obtain⟨-,-,-,p,hp,hn,ho⟩:=load_members f
 obtain⟨n,hn⟩:=isSome_iff_exists.1 hn
 obtain⟨o,ho⟩:=isSome_iff_exists.1 ho
 rw[methodText?,methodText?,Pe.entryOf,Pe.entryOf,hp,bind_some,bind_some,Object.item?_withMade,
  getElem?_map,Array.getElem?_toList]
 cases f.methods.toArray[i]? with
 | none=>exact⟨rfl,rfl⟩
 | some m=>
  simp only[map_some,bind_some,fillMethod,fillNames,fillNumbers]
  split <;>
  simp[Object.member?_modifyMember,Object.member?_setMembers,hn,ho,Object.text?] <;>
  exact⟨rfl,rfl⟩

/-- Methods without a name are passed over, and those without the name of a class count as methods of any class. -/
lemma any_known (f:File)(own c:Bytes→Bool):
 (f.methods.known.any fun m=>m.names.owner.all own&&m.names.name.any c)=true↔
 ∃i<f.methods.known.size,(methodText? (load (some f)) i "class_name"=none∨
   ∃s∈methodText? (load (some f)) i "class_name",own s)∧∃s∈methodText? (load (some f)) i "name",c s:=by
 have ha (o:Option Bytes):o.all own=true↔o=none∨∃s∈o,own s:=by cases o<;>simp
 rw[Array.any_eq_true]
 refine exists_congr fun i=>⟨fun⟨hi,h⟩=>⟨hi,?_⟩,fun⟨hi,h⟩=>⟨hi,?_⟩⟩
 all_goals
  simpa[methodText?_load,show f.methods.toArray[i]?=_ from Array.getElem?_append_left hi,hi,ha,Option.any_eq_true]using h
lemma isMatch_iff {S:Type}(e:Environment S){c:Call}(hc:c.regexCode=e.set.regexCode){n:Nat}{m:Matcher}
 (hm:c.argument n=.matcher m){s:Bytes}(hr:(matcherRun e m (.text s.untilNul)).code=.success):
 c.isMatch n s=(matchResult e (.text s.untilNul) (.matcher m)).any (·.isTrue):=by
 rw[Pe.matchResult_holds hr,Call.isMatch,Call.matchLength?,hm,hc]
 change (matcherRun e m (.text s.untilNul)).lengths.back?.isSome=_
 grind [Array.isEmpty]
lemma call_hasMethodOfClass (f:File)(c:Call):call .hasMethodOfClass (some f) c=if f.complete then truth (f.methods.known.any
  fun m=>m.names.owner.all (Bytes.untilNul · == c.name 1)&&m.names.name.any (Bytes.untilNul · == c.name 2))
 else .noInteger:=rfl

/-- Which methods are found by the names of their class and of themselves: texts are compared up to their first NUL, and a
method whose class has no name is a method of any class. -/
theorem has_method_found {σ:Type} (e:Environment σ) (f:File) (a b:Bytes) (p q:Matcher) (blocks:List Scan.SourceBlock) :
 let report:=load (some f)
 let n:=f.methods.known.size
 let owner (i:Nat):=methodText? report i "class_name"
 let name (i:Nat):=methodText? report i "name"
 let holds (m:Matcher) (s:Bytes):=(matchResult e (.text s) (.matcher m)).any (·.isTrue)
 let equal:=call .hasMethodOfClass (some f) ⟨[.text a,.text b],blocks,e.set.regexCode⟩
 let matched:=call .hasMethodOfClassMatching (some f) ⟨[.matcher p,.matcher q],blocks,e.set.regexCode⟩
 report.member? "number_of_methods"=some (if f.complete then .ofNat n else .noInteger) ∧
 (f.complete=false → equal=.noInteger ∧ matched=.noInteger) ∧
 (f.complete=true → ∃x y,equal=truth x ∧ matched=truth y ∧
  (x=true ↔ ∃i<n,(owner i=none ∨ ∃s∈owner i,s.untilNul=a.untilNul) ∧ ∃s∈name i,s.untilNul=b.untilNul) ∧
  ((∀i<n,(∀s∈owner i,(matcherRun e p (.text s.untilNul)).code=.success) ∧
    ∀s∈name i,(matcherRun e q (.text s.untilNul)).code=.success) →
   (y=true ↔ ∃i<n,(owner i=none ∨ ∃s∈owner i,holds p s.untilNul) ∧ ∃s∈name i,holds q s.untilNul))) := by
 intro report n owner name holds equal matched
 refine⟨(load_members f).2.1,fun h=>⟨if_neg (h▸Bool.false_ne_true),if_neg (h▸Bool.false_ne_true)⟩,
  fun h=>⟨_,_,if_pos h,if_pos h,(any_known f _ _).trans ?_,fun hr=>(any_known f _ _).trans ?_⟩⟩
 ·simp only[beq_iff_eq]
  rfl
 ·refine exists_congr fun i=>and_congr_right fun hi=>?_
  refine and_congr (or_congr_right (exists_congr fun s=>and_congr_right fun hs=>?_))
   (exists_congr fun s=>and_congr_right fun hs=>?_)
  ·rw[isMatch_iff e rfl rfl ((hr i hi).1 s hs)]
  ·rw[isMatch_iff e rfl rfl ((hr i hi).2 s hs)]

/-- A file with a class and its two methods, with some of the types that name it, and some bytes at its end. -/
def classSample (types:UInt8)(pad:Nat):Bytes:=Bytes.ofList ([100,101,120,10,48,51,53,0]++replicate 48 0++
 ([2,112,types,120,0,0,0,0,1,124,1,132].flatMap fun n=>[n,0,0,0])++replicate 8 0++
 ([164,167,1,0,0].flatMap fun n=>[n,0,0,0])++replicate 24 0++[172,0,0,0,0,0,0,0,1,109,0,3,76,65,59,0]++
 [0,0,1,1,0,1,0,0,1,0]++replicate pad 0)
def classFile (types:UInt8)(pad:Nat):File:=(File.read? (classSample types pad)).getD {data:=.empty}

/-- A method is found as one of a class that has another name, or none. -/
theorem unowned_method_found :
 let f:=classFile 0 16
 f.complete=true ∧ f.methods.known.size=2 ∧ methodText? (load (some f)) 0 "class_name"=none ∧
 methodText? (load (some f)) 0 "name"=some (.ofList [109]) ∧
 call .hasMethodOfClass (some f) ⟨[.text (.ofList [88]),.text (.ofList [109])],[],.empty⟩=truth true := by
 have hf:(classFile 0 16).complete=true:=by decide +kernel
 simp only[methodText?_load]
 rw[call_hasMethodOfClass,if_pos hf]
 exact⟨hf,by decide +kernel,by decide +kernel,by decide +kernel,congrArg truth (by decide +kernel)⟩

/-- What is reported of the members of the classes, if the entries have room and known indices. -/
theorem members_reported {d:Bytes} {f:File} (h:File.read? d=some f) (hd:TablesInside d) {items:List (Option ClassItem)}
 (hitems:Forall₂ (Defines d) (classPlaces d) items)
 (hroom:∀p∈(classPlaces d).zip items,∀x∈p.2,x.Roomy d (classAt d p.1).data)
 (hknown:∀x,some x∈items → x.Known f) :
 let report:=load (some f)
 let indices:=items.flatMap (·.elim [] ClassItem.methodIndices)
 report.member? "number_of_fields"=some (.ofNat (items.map (·.elim 0 ClassItem.fieldCount)).sum) ∧
 report.member? "number_of_methods"=some (.ofNat (items.map (·.elim 0 ClassItem.methodCount)).sum) ∧
 ∀k,methodText? report k "name"=indices[k]?.bind (fun i=>f.methodIds[i]?.bind fun id=>f.text? id.name) ∧
  methodText? report k "class_name"=indices[k]?.bind (fun i=>f.methodIds[i]?.bind fun id=>f.typeName? id.owner) := by
 intro report indices
 obtain⟨g,rfl,hda,hf,hme⟩:=File.read?_classes h hd
 have hid:∀x,some x∈items→x.Known g:=by
  obtain⟨_,_,_,_,_,hfr⟩:=g.withClasses_frame (classPlaces d)
  rw[hfr]at hknown
  exact hknown
 obtain⟨cs,counts,fs,ms,hr,hfs,hms⟩:=File.withClasses_eq hda hitems hroom hid (by rw[hf]) (by rw[hme])
 simp only[hf,hme,Array.empty_append]at hr
 have hs {α:Type} (idx:ClassItem→List α) (count:ClassItem→Nat) (hl:∀x,(idx x).length=count x):
  (items.flatMap (·.elim [] idx)).length=(items.map (·.elim 0 count)).sum:=by
  rw[length_flatMap]
  congr 2
  funext o
  cases o<;>simp[hl]
 have hl {l:Array Member} {ns:List Nat} {names:Nat→MemberNames} (h:l.toList.map (·.names)=ns.map names):
  l.size=ns.length:=by
  simpa using congrArg length h
 obtain⟨-,hnm,hnf,-⟩:=load_members (g.withClasses (classPlaces d))
 refine⟨hnf.trans ?_,hnm.trans ?_,fun k=>?_⟩
 ·rw[hr,if_pos rfl,hl hfs,hs _ _ ClassItem.length_fieldIndices]
 ·rw[hr,if_pos rfl,hl hms,hs _ _ ClassItem.length_methodIndices]
 ·have hk:ms[k]?.map (·.names)=indices[k]?.map g.methodNames:=by
   rw[←Array.getElem?_toList,←getElem?_map,hms,getElem?_map]
  have ha:(⟨ms,none⟩:Members).toArray=ms:=by simp[Members.toArray]
  rw[(methodText?_load _ k).1,(methodText?_load _ k).2,hr,ha]
  cases hm:ms[k]? with
  | none=>
   rw[hm]at hk
   rw[map_eq_none_iff.1 hk.symm]
   exact⟨rfl,rfl⟩
  | some m=>
   rw[hm]at hk
   obtain⟨i,hi,hn⟩:=map_eq_some_iff.1 hk.symm
   rw[hi,bind_some,bind_some,bind_some,bind_some,show m.names=_ from hn.symm]
   unfold File.methodNames
   cases g.methodIds[i]?<;>exact⟨rfl,rfl⟩
def sampleEntry:Entry 2:=⟨.ofByte 0 (by decide),[.ofByte 1 (by decide),.ofByte 0 (by decide)],rfl⟩
def sampleItem:ClassItem:=⟨[],[],[sampleEntry],[sampleEntry],[.ofByte 0 (by decide),.ofByte 0 (by decide),
 .ofByte 1 (by decide),.ofByte 1 (by decide)],rfl⟩
theorem members_reported_two :
 let report:=load (some (classFile 1 16))
 report.member? "number_of_fields"=some (.ofNat 0) ∧ report.member? "number_of_methods"=some (.ofNat 2) ∧
 methodText? report 1 "name"=some (.ofList [109]) ∧ methodText? report 1 "class_name"=some (.ofList [76,65,59]) := by
 have hp:classPlaces (classSample 1 16)=[132]:=by decide +kernel
 have hr:File.read? (classSample 1 16)=some (classFile 1 16):=by
  obtain⟨f,hf⟩:=isSome_iff_exists.1 (by decide +kernel:(File.read? (classSample 1 16)).isSome)
  rw[classFile,hf]
  rfl
 have hk:sampleItem.Known (classFile 1 16):=by
  unfold ClassItem.Known
  decide +kernel
 have h:=members_reported hr (by unfold TablesInside;decide +kernel)
  (by rw[hp];exact .cons (b:=some sampleItem) ⟨by decide +kernel,by decide +kernel⟩ .nil)
  (by
   rw[hp]
   simp only[zip_cons_cons,zip_nil_left,forall_mem_singleton,mem_some_iff,forall_eq']
   unfold ClassItem.Roomy
   decide +kernel)
  (by simpa using hk)
 exact⟨h.1,h.2.1,(h.2.2 1).1.trans (by decide +kernel),(h.2.2 1).2.trans (by decide +kernel)⟩

/-- The last bytes of a file hold the data of its class. Both methods are missing, or one of them. -/
theorem entries_dropped : Defines (classSample 1 0) 132 (some sampleItem) ∧ sampleItem.methodCount=2 ∧
 (load (some (classFile 1 0))).member? "number_of_methods"=some .noInteger ∧
 (load (some (classFile 1 8))).member? "number_of_methods"=some (.ofNat 1) := by
 rw[(load_members _).2.1,(load_members _).2.1,if_neg (by decide +kernel),if_pos (by decide +kernel)]
 exact⟨⟨by decide +kernel,by decide +kernel⟩,rfl,rfl,congrArg (fun n=>some (Object.ofNat n)) (by decide +kernel)⟩
end Module.Dex
end PatternScan