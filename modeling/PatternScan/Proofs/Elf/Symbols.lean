import PatternScan.Module.Elf
import PatternScan.Proofs.Atom.Items
/-! The digests of the names of symbols do not depend on the order of the symbols. -/
namespace PatternScan
open List Bytes
namespace Elf
lemma textLe_iff (a b:Bytes):textLe a b↔a.toList≤b.toList:=by
 simp only[textLe,Bool.not_eq_true',decide_eq_false_iff_not]
 rfl
lemma joined_perm {names names':List Bytes}(h:names.Perm names'):joined names=joined names':=by
 have hs:∀l:List Bytes,(l.mergeSort textLe).Pairwise (fun a b=>textLe a b):=
  pairwise_mergeSort (fun a b c=>by simp only[textLe_iff];exact List.le_trans)
   (fun a b=>by simp only[Bool.or_eq_true,textLe_iff];exact List.le_total _ _)
 have hso:∀{l l':List Bytes},l.Perm l'→l.mergeSort textLe=l'.mergeSort textLe:=fun {l l'} hl=>
  Perm.eq_of_pairwise (fun a b _ _ hab hba=>by
    rw[textLe_iff]at hab hba
    have:=List.le_antisymm hab hba
    rw[toList_eq,toList_eq]at this
    exact ByteArray.ext (Array.ext' this))
   (hs l) (hs l') ((mergeSort_perm l _).trans (hl.trans (mergeSort_perm l' _).symm))
 rw[joined,joined,hso (h.map _)]
def File.imports (x:File):List Bytes:=
 x.linkedSymbols.filterMap fun s=>s.name.filter fun n=>s.home==0&&!n.isEmpty

/-- The symbols whose names make up the similarity digest. -/
def File.functions (x:File):List Symbol:=
 x.linkedSymbols.filter fun s=>s.binding==1&&s.type==2&&s.visibility==0&&s.name.any isTelling
lemma File.functionNames_eq (x:File):x.functionNames=
 joined ((x.functions.map fun s=>(s.name,s.type,s.binding,s.visibility)).filterMap Prod.fst):=by
 rw[functionNames,functions,filterMap_map,filterMap_filter]
 refine congrArg joined (filterMap_congr fun s _=>?_)
 cases hn:s.name with
 | none=>simp
 | some n=>simp[hn,Option.filter]
end Elf
namespace Module.Elf
open PatternScan.Elf
lemma call_importHash {x y:File}(h:x.imports.Perm y.imports):
 call .importHash (some x)=call .importHash (some y):=by
 have hn:x.importedNames=y.importedNames:=joined_perm h
 simp only[call,Option.bind_some,hn]
lemma call_similarityHash {x y:File}(h:(x.functions.map fun s=>(s.name,s.type,s.binding,s.visibility)).Perm
 (y.functions.map fun s=>(s.name,s.type,s.binding,s.visibility))):
 call .similarityHash (some x)=call .similarityHash (some y):=by
 have hn:x.functionNames=y.functionNames:=by
  rw[File.functionNames_eq,File.functionNames_eq]
  exact joined_perm (h.filterMap _)
 simp only[call,Option.bind_some,hn]

/-- The digests depend on the names of the imported symbols, or on what is known of the functions, each as a multiset.
So they are the same if the symbols of the table stand in another order. -/
theorem digests_of_symbols :
 (∀x y:File,x.imports.Perm y.imports → call .importHash (some x)=call .importHash (some y)) ∧
 (∀x y:File,(x.functions.map fun s=>(s.name,s.type,s.binding,s.visibility)).Perm
   (y.functions.map fun s=>(s.name,s.type,s.binding,s.visibility)) →
  call .similarityHash (some x)=call .similarityHash (some y)) ∧
 ∀x y:File,x.linkedSymbols.Perm y.linkedSymbols → ∀g,call g (some x)=call g (some y):=by
 refine⟨fun _ _=>call_importHash,fun _ _=>call_similarityHash,fun x y h g=>?_⟩
 cases g with
 | importHash=>exact call_importHash (h.filterMap _)
 | similarityHash=>exact call_similarityHash ((h.filter _).map _)
def symbolFile (names:List String):File:=
 let symbol (name:String):Symbol:=⟨some (ofText name),0,0,2,1,0,0⟩
 {format:=⟨4,false⟩,header:=Header.read ⟨4,false⟩ .empty,dynamicSymbols:=some (names.map symbol)}
theorem digests_of_symbols_exchanged :
 let x:=symbolFile ["open","Close","open"]
 let y:=symbolFile ["open","open","Close"]
 x.imports=["open","Close","open"].map Bytes.ofText ∧
 call .importHash (some x)=call .importHash (some y) ∧ call .similarityHash (some x)=call .similarityHash (some y) ∧
 ∀g,call g (some x)=call g (some y):=
 ⟨by decide +kernel,digests_of_symbols.1 _ _ (by decide +kernel),digests_of_symbols.2.1 _ _ (by decide +kernel),
  digests_of_symbols.2.2 _ _ (.cons _ (.swap ..))⟩
end Module.Elf
end PatternScan
