import PatternScan.Dotnet.Contents
import PatternScan.Proofs.Pe.Matching
/-! The columns of the tables of a program: where the rows are read, and where they were laid out. -/
namespace PatternScan.Dotnet
open List Widths
variable {n:Nat}{tb:Table}
namespace Widths
variable {w:Widths}
lemma columns_append (w:Widths)(l m:List Column):w.columns (l++m)=w.columns l+w.columns m:=by
 have hs (l:List Column):w.columns l=(l.map w.column).sum:=by rw[columns,sum_eq_foldl,foldl_map]
 simp[hs]

/-- The columns of a row leave no room between them. -/
lemma row_eq (w:Widths){t:Table}{k:Nat}(hk:k<t.columns.length):
 w.row t=(w.field t k).start+(w.field t k).width+w.columns (t.columns.drop (k+1)):=by
 rw[row,field,getD_eq_getElem _ _ hk]
 nth_rewrite 1 [←take_append_drop k t.columns]
 rw[columns_append,drop_eq_getElem_cons hk,←singleton_append,columns_append,add_assoc]
 simp[columns]
lemma reference_of_le {b:Nat}(h:n≤0xFFFF >>> b):reference b n=2:=if_neg (by omega)
lemma foldl_max_le {f:Table→Nat}{l:List Table}:(l.map f).foldl max 0≤n↔∀t∈l,f t≤n:=by
 have hm (l:List Nat)(m:Nat):l.foldl max m≤n↔m≤n∧∀a∈l,a≤n:=by
  induction l generalizing m with
  | nil=>simp
  | cons a l ih=>simp[ih,and_assoc]
 simp[hm]
lemma field_congr {v:Widths}(h:∀c∈tb.columns,v.column c=w.column c)(k:Nat):
 v.field tb k=w.field tb k:=by
 have hco {l:List Column} (hl:l⊆tb.columns):v.columns l=w.columns l:=
  foldl_ext _ _ _ fun n c hc=>congrArg (n+·) (h c (hl hc))
 rw[field,field,hco (take_subset _ _)]
 by_cases hk:k<tb.columns.length
 ·rw[getD_eq_getElem _ _ hk,h _ (getElem_mem hk)]
 ·rw[getD_eq_default _ _ (by omega)]
  rfl
end Widths
namespace Tables
/-- The tables whose rows are read for the types and their methods. -/
def readTables:List Table:=
 [.typeRef,.typeDef,.method,.param,.interfaceImpl,.genericParam,.typeSpec,.nestedClass]

/-- Tables that lie one behind the other, each with rows of the size that its columns add up to. -/
def Laid (w:Widths):Nat→List (Table×Place)→Prop
 | _,[]=>True
 | start,(table,p)::rest=>p.start=start∧p.rowSize=w.row table∧p.rows≤rowLimit∧Laid w (start+p.rowSize*p.rows) rest
variable {f:Pe.File}{stream strings blobs:Stream}{t:Tables}
lemma locate_eq (t:Tables)(c o:Nat)(nm:List Nat):
 ∃places complete,t.locate c o nm={t with places:=t.places++places,complete:=complete}∧
 Laid t.widths o places:=by
 induction nm generalizing t c o with
 | nil=>exact⟨[],true,by simp[locate],trivial⟩
 | cons n r ih=>
  have hs:∃places complete,t={t with places:=t.places++places,complete:=complete}∧Laid t.widths o places:=
   ⟨[],t.complete,by simp,trivial⟩
  rw[locate]
  split
  ·exact hs
  next hl=>
  split
  ·exact hs
  next ta _=>
  split
  ·exact ih t _ _
  let p:Place:=⟨o,t.file.word c,t.widths.row ta⟩
  obtain⟨places,complete,heq,hla⟩:=ih {t with places:=t.places++[(ta,p)]} (c+4) (o+p.rowSize*p.rows)
  have hr:p.rows≤rowLimit:=by
   simp only[Bool.or_eq_true,decide_eq_true_eq,not_or,not_lt]at hl
   exact hl.2
  rw[append_assoc,singleton_append]at heq
  exact⟨(ta,p)::places,complete,heq,rfl,rfl,hr,hla⟩
lemma Laid.rows_le {w:Widths}{s:Nat}{p:List (Table×Place)}(h:Laid w s p)(tb:Table):
 ((p.lookup tb).elim 0 (·.rows))≤rowLimit:=by
 induction p generalizing s with
 | nil=>exact zero_le
 | cons x r ih=>
  obtain⟨-,-,hr,hre⟩:=h
  rw[lookup_cons]
  split
  ·exact hr
  ·exact ih hre
lemma ofStreams?_laid (h:ofStreams? f stream strings blobs=some t):
 ∃s,Laid t.widths s t.places∧t.widths.targets=t.widths.rows:=by
 simp only[ofStreams?]at h
 split at h
 ·cases h
 obtain⟨places,complete,heq,hl⟩:=locate_eq _ _ _ _
 cases h.symm.trans (congrArg some heq)
 exact⟨_,hl,rfl⟩
/-- In the rows that are read for the types a reference has at most two bits for its table, which leaves room for the
number of a row however the rows are counted. -/
lemma rowField_eq (hr:∀tb,t.rows tb≤rowLimit)(ht:∀tb,t.widths.targets tb≤rowLimit)
 (hta:tb∈readTables)(k:Nat):t.rowField tb k=t.widths.field tb k:=by
 refine field_congr (fun c hc=>?_) k
 cases c with
 | coded b ts=>
  have hb:b≤2:=by
   simp only[readTables,mem_cons,not_mem_nil,or_false]at hta
   rcases hta with rfl|rfl|rfl|rfl|rfl|rfl|rfl|rfl <;>
   simp[Table.columns,Column.typeDefOrRef]at hc <;>
   omega
  have hn {g:Table→Nat}(hg:∀tb,g tb≤rowLimit):reference b ((ts.map g).foldl max 0)=2:=by
   refine reference_of_le (foldl_max_le.2 fun tb _=>(hg tb).trans ?_)
   interval_cases b<;>decide
  exact (hn hr).trans (hn ht).symm
 | _=>rfl

/-- The columns of the rows of types, methods and attributes are read where they were laid out, but of the class of a member
only two bytes, which are all of it if the tables it refers to leave room for the three bits of their kinds. -/
theorem rows_read_as_laid_out (h:ofStreams? f stream strings blobs=some t) (hrows:∀table,t.widths.rows table ≤ 15000)
 (members types:Place) :
 let w:=t.widths
 let cell (table:Table) (k i:Nat):Nat:=t.get (w.field table k) i
 let pair (table:Table) (a b:Nat):List (Nat×Nat):=Types.presentRows t table fun i=>(cell table a i,cell table b i)
 let a:=t.attributeFields members types
 (∃start,Laid w start t.places) ∧
 (∀table k,k<table.columns.length →
  w.row table=(w.field table k).start+(w.field table k).width+w.columns (table.columns.drop (k+1))) ∧
 Types.ofTables t=⟨t,
  Types.rowsOf t .typeDef fun i=>⟨cell .typeDef 0 i,cell .typeDef 1 i,cell .typeDef 2 i,cell .typeDef 3 i,cell .typeDef 5 i⟩,
  Types.rowsOf t .typeRef fun i=>⟨cell .typeRef 1 i,cell .typeRef 2 i⟩,Types.rowsOf t .typeSpec (cell .typeSpec 0),
  pair .nestedClass 0 1,pair .interfaceImpl 0 1,pair .genericParam 2 3⟩ ∧
 (Types.ofTables t).methodFields=
  ⟨w.field .method 2,w.field .method 3,w.field .method 4,w.field .method 5,w.field .param 2⟩ ∧
 (a.parent,a.kind,a.value,a.typeName)=
  (w.field .customAttribute 0,w.field .customAttribute 1,w.field .customAttribute 2,w.field .typeRef 1) ∧
 (a.owner=w.field .memberRef 0 ↔ ∀table∈[Table.method,.moduleRef,.typeRef,.typeSpec],w.rows table ≤ 0x1FFF) ∧
 ∀i,t.get a.owner i=cell .memberRef 0 i%0x10000 := by
 intro w cell pair a
 obtain⟨start,hl,ht⟩:=ofStreams?_laid h
 have hf (table:Table) (hta:table∈readTables) (k:Nat):t.rowField table k=w.field table k:=
  rowField_eq hl.rows_le (fun table=>by rw[ht];exact hrows table) hta k
 have ho:a.owner=⟨0,2⟩:=
  congrArg (Field.mk 0) (Widths.reference_of_le ((hrows .memberRef).trans (by decide)))
 have hm:w.field .memberRef 0=
  ⟨0,Widths.reference 3 (([Table.method,.moduleRef,.typeRef,.typeSpec].map w.rows).foldl max 0)⟩:=by
  rw[←ht]
  rfl
 refine⟨⟨start,hl⟩,fun _ _ hk=>w.row_eq hk,?_,?_,rfl,?_,fun i=>?_⟩
 ·simp only[Types.ofTables,hf .typeDef (by decide),hf .typeRef (by decide),hf .typeSpec (by decide),
   hf .nestedClass (by decide),hf .interfaceImpl (by decide),hf .genericParam (by decide)]
  rfl
 ·simp only[Types.methodFields,Types.ofTables,hf .method (by decide),hf .param (by decide)]
 ·rw[ho,hm,←Widths.foldl_max_le,Widths.reference]
  split
  ·next hw=>exact iff_of_false (by simp) (not_le.2 hw)
  ·next hn=>exact iff_of_true rfl (not_lt.1 hn)
 ·have hfs:=(t.file.data.byteAt i).toNat_lt
  have hs:=(t.file.data.byteAt (i+1)).toNat_lt
  rw[ho]
  simp only[cell,hm,Widths.reference,get]
  split<;>simp only[Bytes.le,add_zero]<;>omega

/-- The row of a member whose class has a number above those that two bytes hold, in a program with 8192 type specifications. -/
def memberSample:Tables:=
 (ofStreams? {(default:Pe.File) with data:=Pe.File.words [0,0,0x8000400,0,0,0,1,8192,0x10001,0]} ⟨.empty,0,40⟩ ⟨.empty,0,0⟩
  ⟨.empty,0,0⟩).get (by decide +kernel)
theorem rows_read_as_laid_out_member : (∃start,Laid memberSample.widths start memberSample.places)∧
 (Types.ofTables memberSample).methodFields.parameters=⟨12,2⟩:=by
 have h:=rows_read_as_laid_out (t:=memberSample) (Option.some_get _).symm (fun table=>by cases table<;>decide +kernel)
  ⟨0,0,0⟩ ⟨0,0,0⟩
 exact⟨h.1,(congrArg (·.parameters) h.2.2.2.1).trans (by decide +kernel)⟩
theorem member_class_cut : (memberSample.place? .memberRef).map (fun p=>
 (memberSample.get (memberSample.attributeFields p p).owner p.start,
  memberSample.get (memberSample.widths.field .memberRef 0) p.start))=some (1,0x10001):=by
 decide +kernel
end Tables
end PatternScan.Dotnet