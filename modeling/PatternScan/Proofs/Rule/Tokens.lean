import Mathlib
import PatternScan.Rule.Lexer
/-! A regular expression in a source is read from its own bytes, and from the second byte behind it if
no letter ends it. -/
open ByteArray
namespace PatternScan.Rule.Lexer
open Bytes
structure Same (b b':Bytes)(i i' n:Nat):Prop where
 room:i+n≤b.size
 room':i'+n≤b'.size
 bytes:∀k<n,b.byteAt (i+k)=b'.byteAt (i'+k)
section
variable {b b':Bytes}{i i' m n:Nat}{held:Bytes}
lemma le_spanEnd (t:UInt8→Bool)(b:Bytes)(i:Nat):i ≤ spanEnd t b i:=by
 fun_induction spanEnd with
 | case1=>omega
 | case2 | case3=>exact le_refl _
lemma lt_spanEnd {t:UInt8→Bool}(hi:i<b.size)(ht:t (b.byteAt i)):i<spanEnd t b i:=by
 rw[byteAt,dif_pos hi]at ht
 rw[spanEnd,dif_pos hi,if_pos ht]
 exact le_spanEnd t b (i+1)
lemma collect_at (md:LexMode)(held p:Bytes)(stop:Nat):
 collect md held p stop={collect md held p 0 with stop:=stop}:=by
 unfold collect
 split<;>rfl
lemma collectByte_at (md:LexMode)(held:Bytes)(c:UInt8)(stop:Nat):
 collectByte md held c stop={collectByte md held c 0 with stop:=stop}:=by
 unfold collectByte
 split<;>rfl
lemma lt_regexpEnd (b:Bytes)(i:Nat):i<regexpEnd b i:=by
 simp only[regexpEnd]
 split_ifs<;>omega
lemma lt_regexpStep (hi:i<b.size)(held:Bytes):i<(regexpStep b i held).stop:=by
 by_cases hb:b.byteAt i=47
 ·simp only[regexpStep,hb,beq_self_eq_true,if_true]
  split<;>exact lt_regexpEnd b i
 simp only[regexpStep,beq_iff_eq,if_neg hb]
 by_cases hf:b.byteAt i=10
 ·simp[hf]
 by_cases hba:b.byteAt i=92
 ·rw[if_neg hf,if_pos hba,collectByte_at]
  split_ifs<;>simp
 ·have hs:i<spanEnd (fun c=>c != 47&&c != 10&&c != 92) b i:=
   lt_spanEnd hi (by simp[hb,hf,hba])
  rwa[if_neg hf,if_neg hba,collect_at]
namespace Same
variable (h:Same b b' i i' n)
include h
lemma byte (hn:0<n):b'.byteAt i'=b.byteAt i:=(h.bytes 0 hn).symm
lemma drop (hm:m≤n):Same b b' (i+m) (i'+m) (n-m) where
 room:=by have:=h.room;omega
 room':=by have:=h.room';omega
 bytes k hk:=by
  rw[add_assoc,add_assoc]
  exact h.bytes _ (by omega)
lemma extract (hm:m≤n):b'.extract i' (i'+m)=b.extract i (i+m):=by
 have hr:=h.room
 have hr':=h.room'
 refine ext_getElem (by simp only[size_extract];omega) fun k hk hk'=>?_
 rw[size_extract]at hk
 have hb:=h.bytes k (by omega)
 rw[byteAt,byteAt,dif_pos (by omega),dif_pos (by omega)]at hb
 rw[getElem_extract,getElem_extract]
 exact hb.symm
end Same
lemma Same.spanEnd {t:UInt8→Bool}(h:Same b b' i i' n)
 (hs:spanEnd t b i < i+n):Lexer.spanEnd t b' i'=i'+(Lexer.spanEnd t b i-i):=by
 induction n generalizing i i' with
 | zero=>exact absurd hs (not_lt.2 (le_spanEnd t b i))
 | succ n ih=>
  have hr:=h.room
  have hr':=h.room'
  have hb:=h.byte n.succ_pos
  rw[byteAt,byteAt,dif_pos (by omega),dif_pos (by omega)]at hb
  rw[Lexer.spanEnd,dif_pos (by omega)]at hs⊢
  rw[hb]
  conv=>rhs;rw[Lexer.spanEnd,dif_pos (by omega)]
  split_ifs at hs⊢
  ·have:=ih (h.drop (Nat.le_add_left 1 n)) (by omega)
   have:=le_spanEnd t b (i+1)
   omega
  ·omega
lemma Same.regexpStep (h:Same b b' i i' n)(hn:0<n)(hby:b.byteAt i≠47)(hs:(regexpStep b i held).stop < i+n):
 Lexer.regexpStep b' i' held={ Lexer.regexpStep b i held with
  stop:=i'+((Lexer.regexpStep b i held).stop-i) }:=by
 have hr:=h.room
 have hr':=h.room'
 simp only[Lexer.regexpStep,beq_iff_eq,h.byte hn,if_neg hby]at hs⊢
 by_cases hf:b.byteAt i=10
 ·simp[hf]
 by_cases hb:b.byteAt i=92
 ·rw[if_neg hf,if_pos hb]at hs⊢
  have hn':1<n:=by
   rw[collectByte_at]at hs
   split_ifs at hs<;>(dsimp only at hs;omega)
  rw[←h.bytes 1 hn',if_neg hf,collectByte_at,collectByte_at _ _ _ (i+2)]
  simp only[show ¬b.size ≤ i+1 by omega,show ¬b'.size ≤ i'+1 by omega]
  split_ifs<;>simp
 ·rw[if_neg hf,if_neg hb,collect_at]at hs⊢
  rw[if_neg hf,if_neg hb,collect_at _ _ (b.extract _ _),h.spanEnd hs]
  have hsp:=le_spanEnd (fun c=>c != 47&&c != 10&&c != 92) b i
  dsimp only at hs⊢
  rw[h.extract (by omega),Nat.add_sub_cancel' hsp]
end
def Closed (b:Bytes)(stop:Nat):Prop:=
 (b.byteAt (stop-1)=47→b.byteAt stop≠105)∧(b.byteAt (stop-1)≠115→b.byteAt stop≠115)
def Clear (b:Bytes)(stop:Nat):Prop:=b.byteAt (stop-1)=47→b.byteAt (stop+1)≠115
instance (b:Bytes)(stop:Nat):Decidable (Closed b stop):=inferInstanceAs (Decidable (_∧_))
instance (b:Bytes)(stop:Nat):Decidable (Clear b stop):=inferInstanceAs (Decidable (_→_))
def pos (l:Lexer):Nat:=
 match l.buffers with
 | []=>0
 | b::_=>b.pos
section
variable {b b':Bytes}{i i' m n:Nat}{held pattern:Bytes}{noCase dotAll:Bool}
lemma Same.regexpEnd (h:Same b b' i i' n)(hb:b.byteAt i=47)(he:regexpEnd b i=i+n)
 (hc:Closed b' (i'+n)):Lexer.regexpEnd b' i'=i'+n:=by
 simp only[Lexer.regexpEnd,beq_iff_eq]at he⊢
 by_cases hi:b.byteAt (i+1)=105
 ·have hi':b'.byteAt (i'+1)=105:=by rw[←h.bytes 1 (by split_ifs at he<;>omega),hi]
  rw[if_pos hi']
  split_ifs at he with hs
  ·obtain rfl:n=3:=by omega
   rw[if_pos (by rw[←h.bytes 2 (by omega),hs])]
  ·obtain rfl:n=2:=by omega
   exact if_neg (hc.2 (by simp[hi']))
 split_ifs at he with hs
 ·obtain rfl:n=2:=by omega
  have hs':b'.byteAt (i'+1)=115:=by rw[←h.bytes 1 (by omega),hs]
  simp[hs']
 ·obtain rfl:n=1:=by omega
  have hsl:b'.byteAt i'=47:=by rw[h.byte Nat.one_pos,hb]
  have hi':b'.byteAt (i'+1)≠105:=hc.1 hsl
  rw[if_neg hi',if_neg (hc.2 (by simp[hsl]))]
lemma byteAt_ne_of_regexpEnd (h:regexpEnd b i=i+1):b.byteAt (i+1)≠105:=by
 intro hi
 simp only[regexpEnd,beq_iff_eq]at h
 split_ifs at h<;>omega
lemma dotAll_eq (hb:b.byteAt i=47):
 (if regexpEnd b i==i+1 then b.byteAt (i+2)==115 else b.byteAt (regexpEnd b i-1)==115)=
  (b.byteAt (regexpEnd b i-1)==115||!decide (Clear b (regexpEnd b i))):=by
 unfold Clear regexpEnd
 grind
lemma clear_of_byteAt_eq {stop:Nat}(h:b.byteAt (stop-1)=115):Clear b stop:=
 fun hs=>absurd (h.symm.trans hs) (by decide)
lemma Same.regexpStep_close (h:Same b b' i i' n)(hb:b.byteAt i=47)
 (hf:(Lexer.regexpStep b i held).found=.terminal .regexp (.regexp pattern noCase dotAll))
 (hst:(Lexer.regexpStep b i held).stop=i+n)(hcl:Closed b' (i'+n)):
 ∃dotAll',Lexer.regexpStep b' i' held=⟨.terminal .regexp (.regexp pattern noCase dotAll'),i'+n,
  .code,held⟩∧(dotAll'=dotAll↔(Clear b (i+n)↔Clear b' (i'+n))):=by
 simp only[Lexer.regexpStep,hb,beq_self_eq_true,if_true]at hf hst
 by_cases he:held.isEmpty
 ·rw[if_pos he]at hf
  nomatch hf
 rw[if_neg he]at hf hst
 dsimp only at hst
 injection hf with _ hf
 injection hf with hp hc hd
 subst hp hc hd
 have hn:0<n:=by have:=lt_regexpEnd b i;omega
 have hen:=h.regexpEnd hb hst hcl
 have hsl:b'.byteAt i'=47:=by rw[h.byte hn,hb]
 have hca:(b'.byteAt (i'+1)==105)=(b.byteAt (i+1)==105):=by
  obtain rfl|hn:n=1∨1<n:=by omega
  ·rw[beq_false_of_ne (byteAt_ne_of_regexpEnd hen),beq_false_of_ne (byteAt_ne_of_regexpEnd hst)]
  ·rw[h.bytes 1 hn]
 refine⟨_,by simp only[Lexer.regexpStep,hsl,he,hca,hen];rfl,?_⟩
 have hl:b'.byteAt (i'+n-1)=b.byteAt (i+n-1):=by
  rw[Nat.add_sub_assoc hn,Nat.add_sub_assoc hn,h.bytes (n-1) (by omega)]
 rw[dotAll_eq hb,←hen,dotAll_eq hsl,hen,hst,hl]
 by_cases hs:b.byteAt (i+n-1)=115
 ·simp[clear_of_byteAt_eq hs,clear_of_byteAt_eq (hl.trans hs)]
 ·rw[beq_false_of_ne hs,Bool.false_or,Bool.false_or,Bool.not_inj_iff,decide_eq_decide]
  exact iff_comm
def Inside.Quiet (x:Inside):Prop:=x.mode=.regexp∧∀t value,x.found≠.terminal t value
lemma collectByte_quiet (held:Bytes)(c:UInt8)(s:Nat):(collectByte .regexp held c s).Quiet:=by
 unfold collectByte
 split<;>exact⟨rfl,by simp⟩
lemma collect_quiet (held p:Bytes)(s:Nat):(collect .regexp held p s).Quiet:=by
 unfold collect
 split<;>exact⟨rfl,by simp⟩
lemma regexpStep_quiet (hb:b.byteAt i≠47)(held:Bytes):(regexpStep b i held).Quiet:=by
 simp only[regexpStep,beq_iff_eq,if_neg hb]
 split_ifs
 exacts [⟨rfl,by simp⟩,⟨rfl,by simp⟩,collectByte_quiet _ _ _,⟨rfl,by simp⟩,⟨rfl,by simp⟩,⟨rfl,by simp⟩,
  collect_quiet _ _ _]

/-- The lexer stands inside of a regular expression, of which it holds a part. -/
def Within (l:Lexer)(b:Bytes)(i:Nat)(held:Bytes):Prop:=
 ∃line rest,l=⟨⟨b,i,line⟩::rest,.regexp,held⟩
def Reads (found:Scanned×Lexer)(pattern:Bytes)(noCase dotAll:Bool)(stop:Nat):Prop:=
 found.1=.terminal .regexp (.regexp pattern noCase dotAll)∧found.2.pos=stop
lemma Within.step {l:Lexer}(hl:Within l b i held)(hi:i<b.size):
 ∃l',l.step=((regexpStep b i held).found,l')∧l'.pos=(regexpStep b i held).stop∧
  ((regexpStep b i held).mode=.regexp→
   Within l' b (regexpStep b i held).stop (regexpStep b i held).held):=by
 obtain⟨line,r,rfl⟩:=hl
 let inside:=regexpStep b i held
 refine⟨⟨⟨b,inside.stop,line+lineFeeds b i inside.stop⟩::r,inside.mode,inside.held⟩,
  if_neg (not_le.2 hi),rfl,fun hm=>⟨line+lineFeeds b i inside.stop,r,?_⟩⟩
 rw[←hm]
lemma Within.step_end {l:Lexer}(hl:Within l b i held)(hi:b.size ≤ i):∃l',l.step=(.bufferEnd,l'):=by
 obtain⟨line,r,rfl⟩:=hl
 exact⟨_,if_pos hi⟩
lemma found_ne_nothing (hb:b.byteAt i=47)(held:Bytes):(regexpStep b i held).found≠.nothing:=by
 simp only[regexpStep,hb,beq_self_eq_true,if_true]
 split<;>exact nofun

/-- The lexer reads a regular expression wherever its bytes stand, if it reads it at one place. -/
lemma Within.advance {l:Lexer}{fuel stop:Nat}(hl:Within l b i held)
 (hr:Reads (advance fuel l) pattern noCase dotAll stop):i<stop∧
  ∀{l' b' i' fuel'},Within l' b' i' held→Same b b' i i' (stop-i)→stop-i≤fuel'→
   Closed b' (i'+(stop-i))→∃dotAll', Reads (Lexer.advance fuel' l') pattern noCase dotAll' (i'+(stop-i))∧
     (dotAll'=dotAll↔(Clear b stop↔Clear b' (i'+(stop-i)))):=by
 induction fuel generalizing l i held with
 | zero=>nomatch hr.1
 | succ _ ih=>
  obtain hi|hi:=lt_or_ge i b.size
  swap
  ·obtain⟨l1,hs⟩:=hl.step_end hi
   rw[Lexer.advance,hs]at hr
   nomatch hr.1
  obtain⟨l1,hs,hp,hw⟩:=hl.step hi
  rw[Lexer.advance,hs]at hr
  have hlt:=lt_regexpStep hi held
  cases hf:(regexpStep b i held).found with
  | nothing=>
   have hb:b.byteAt i≠47:=fun h=>found_ne_nothing h held hf
   have hq:=regexpStep_quiet hb held
   rw[hf]at hr
   obtain⟨hlt',ha⟩:=ih (hw hq.1) hr
   refine⟨lt_trans hlt hlt',?_⟩
   intro l' b' i' fuel' hl' h hfu hc
   obtain⟨fuel',rfl⟩:∃k,fuel'=k+1:=⟨fuel'-1,by omega⟩
   have hro:=h.room'
   obtain⟨l1',hs',-,hw'⟩:=hl'.step (by omega)
   rw[h.regexpStep (by omega) hb (by omega)]at hs' hw'
   have hdr:=h.drop (Nat.sub_le_sub_right (le_of_lt hlt') i)
   rw[Nat.add_sub_cancel' (le_of_lt hlt)]at hdr
   have hle:i'+(stop-i)=
    i'+((regexpStep b i held).stop-i)+(stop-(regexpStep b i held).stop):=by omega
   rw[Lexer.advance,hs',hf]
   rw[hle]at hc⊢
   refine ha (hw' hq.1) ?_ (by omega) hc
   convert hdr using 1
   omega
  | terminal t v=>
   have hb:b.byteAt i=47:=not_not.1 fun h=>(regexpStep_quiet h held).2 t v hf
   rw[hf]at hr
   obtain⟨hf',hp'⟩:=hr
   obtain rfl:(regexpStep b i held).stop=stop:=hp.symm.trans hp'
   refine⟨hlt,?_⟩
   intro l' b' i' fuel' hl' h hfu hc
   obtain⟨fuel',rfl⟩:∃k,fuel'=k+1:=⟨fuel'-1,by omega⟩
   obtain⟨dotAll',hcl,hcle⟩:=h.regexpStep_close hb (hf.trans hf') (by omega) hc
   have hro:=h.room'
   obtain⟨l1',hs',hp',-⟩:=hl'.step (by omega)
   rw[hcl]at hs' hp'
   refine⟨dotAll',⟨by rw[Lexer.advance,hs'],by rw[Lexer.advance,hs'];exact hp'⟩,?_⟩
   rwa[Nat.add_sub_cancel' (le_of_lt hlt)]at hcle
  | fault | included | bufferEnd=>
   rw[hf]at hr
   nomatch hr.1

/-- A regular expression opens with a slash that opens no comment. -/
def Opens (b:Bytes)(i:Nat):Prop:=b.byteAt i=47∧b.byteAt (i+1)≠42∧b.byteAt (i+1)≠47
def Before (l:Lexer)(b:Bytes)(i:Nat):Prop:=
 ∃line rest held,l=⟨⟨b,i,line⟩::rest,.code,held⟩
lemma Opens.lt_size (h:Opens b i):i<b.size:=by
 by_contra hi
 have hs:=h.1
 rw[byteAt,dif_neg hi]at hs
 nomatch hs
lemma codeStep_opens (h:Opens b i):codeStep b i=(.nothing,i+1,.regexp):=by
 obtain⟨hs,hst,hl⟩:=h
 simp[codeStep,hs,hst,hl]
lemma Before.next {l:Lexer}(hl:Before l b i)(ho:Opens b i):
 ∃l1,l.next=advance (b.size+1) l1∧Within l1 b (i+1) empty:=by
 obtain⟨line,r,held,rfl⟩:=hl
 refine⟨⟨⟨b,i+1,line+lineFeeds b i (i+1)⟩::r,.regexp,empty⟩,?_,_,r,rfl⟩
 rw[Lexer.next,allowance,advance,step]
 simp only[if_neg (not_le.2 ho.lt_size),codeStep_opens ho]
 rfl

/-- Where the bytes of a regular expression stand at another place, the lexer reads the same pattern with the same
case. The flag for line feeds is the same unless just one of the two has an `s` as the second byte behind a closing
slash. -/
theorem next_regexp_same {l l':Lexer} (hl:Before l b i) (hl':Before l' b' i') (hopen:Opens b i)
 (h:Same b b' i i' n) (hclosed:Closed b' (i'+n))
 (hread:Reads l.next pattern noCase dotAll (i+n)) : ∃ dotAll',Reads l'.next pattern noCase dotAll' (i'+n) ∧
   (dotAll'=dotAll ↔ (Clear b (i+n) ↔ Clear b' (i'+n))) := by
 obtain⟨l₁,hnext,hwith⟩:=hl.next hopen
 rw[hnext]at hread
 obtain⟨hlt,hagain⟩:=hwith.advance hread
 have hopen':Opens b' i':=by
  rw[Opens,h.byte (by omega),←h.bytes 1 (by omega)]
  exact hopen
 obtain⟨l₁',hnext',hwith'⟩:=hl'.next hopen'
 have hroom:=h.room'
 have hlen:i'+n=i'+1+(i+n-(i+1)):=by omega
 have hdrop:=h.drop (show 1≤n by omega)
 rw[show n-1=i+n-(i+1) by omega]at hdrop
 rw[hlen]at hclosed⊢
 rw[hnext']
 exact hagain hwith' hdrop (by omega) hclosed
end
def opened (text:String)(i:Nat):Lexer:=⟨[⟨text.toUTF8,i,1⟩],.code,empty⟩
theorem next_regexp_same_moved :
 Reads (opened "$a = /a\\/b/is wide" 5).next "a/b".toUTF8 true true (5+8) ∧
  ∃ dotAll,Reads (opened "/a\\/b/is\n" 0).next "a/b".toUTF8 true dotAll (0+8) ∧
   (dotAll=true ↔ (Clear "$a = /a\\/b/is wide".toUTF8 (5+8) ↔ Clear "/a\\/b/is\n".toUTF8 (0+8))) :=
 have hread:Reads (opened "$a = /a\\/b/is wide" 5).next "a/b".toUTF8 true true (5+8) :=
  ⟨by cbv,by cbv⟩
 ⟨hread,next_regexp_same ⟨_,_,_,rfl⟩ ⟨_,_,_,rfl⟩ ⟨by decide,by decide,by decide⟩
  ⟨by decide,by decide,by decide⟩ (by decide) hread⟩

/-- The text behind a regular expression decides if its dots match line feeds. -/
theorem regexp_flag_of_text_behind : Reads (opened "/a.b/ascii" 0).next "a.b".toUTF8 false true 5 ∧
 Reads (opened "/a.b/ ascii" 0).next "a.b".toUTF8 false false 5 :=
 ⟨⟨by cbv,by cbv⟩,by cbv,by cbv⟩
end PatternScan.Rule.Lexer