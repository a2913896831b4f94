import PatternScan.Proofs.Regex.Ranks
/-! A run loses no thread: each one that was made waits or is in the pool. -/
namespace PatternScan.Regex
open List Machine Thread
variable {a:Allowance}{c:Code}{e:Nat}{f:RunFlags}{inp:Input}{s s':State}{p:Pool}
namespace Pool
def Lends (p:Pool)(n:Nat):Prop:=p.idle+n=p.made∧p.made≤Limits.regexThreads
lemma lends_iff {n:Nat}:p.Lends n↔p.Sound∧p.room+n=Limits.regexThreads:=by
 unfold Lends Sound room
 omega
lemma Lends.release {n k:Nat}(h:p.Lends (n+k)):(p.release k).Lends n:=by
 unfold Lends Pool.release at *
 dsimp only
 omega
lemma Lends.expand {n fl:Nat}{t:Thread}{V:List Nat}{x:Expansion}(h:p.Lends (n+1))
 (hx:expand c fl t V p=.ok x):x.pool.Lends (x.threads.length+n):=by
 rw[lends_iff]at *
 have hb:=expand_balanced _ _ _ _ _ h.1 hx
 have hr:=hb.room
 exact⟨hb.sound,by omega⟩
lemma Lends.distinct {ts k:List Thread}(h:p.Lends (ts.length+k.length)):
 (distinct ts k p).2.Lends (distinct ts k p).1.length:=by
 induction ts generalizing k p with
 | nil=>simpa[Thread.distinct] using h
 | cons t ts ih=>
  rw[length_cons,add_right_comm]at h
  rw[Thread.distinct]
  split
  ·exact ih h.release
  ·exact ih h
lemma Lends.sweep {v:View}{fl:Nat}{ts d:List Thread}{l:Array Nat}:p.Lends (ts.length+d.length)→
 (sweep a c f v fl ts d p l).1=.ok s→s.pool.Lends s.threads.length:=by
 fun_induction Machine.sweep a c f v fl ts d p l with
 | case1=>
  rintro h ⟨⟩
  simpa using h
 | case2 | case8 | case9 | case11=>rintro _ ⟨⟩
 | case5=>
  rintro h ⟨⟩
  exact Lends.release (by simpa[add_comm,add_left_comm]using h)
 | case6 _ _ ts d _ _ _ _ _ hx _ ih | case7 _ _ ts d _ _ _ _ _ hx _ _ _ ih | case10 _ _ ts d _ _ _ _ _ hx ih=>
  intro h
  have he:=Lends.expand (n:=ts.length+d.length) (by simpa[add_right_comm]using h) hx
  refine ih ?_
  convert he using 1
  simp
  omega
 | _=>
  next ih=>
  exact fun h=>ih (Lends.release (by simpa[add_right_comm]using h))
lemma Lends.spawn (h:s.pool.Lends s.threads.length)(hs:spawn a c e s=.ok s'):
 s'.pool.Lends s'.threads.length:=by
 obtain⟨p,hp,hs⟩:=bind_eq_ok.1 hs
 obtain⟨x,hx,hs⟩:=bind_eq_ok.1 hs
 cases hs
 rw[lends_iff]at h
 obtain⟨hp,hr⟩:=take_eq_ok h.1 hp
 rw[length_append,add_comm]
 exact Lends.expand (lends_iff.2 ⟨hp,by omega⟩) hx
end Pool
lemma rounds_succ {a:Allowance}{inp:Input}(entry n:Nat){rd:Nat}{s':State}
 {l:Array Nat}(hn:¬s.threads.isEmpty)
 (hs:sweep a c f (view f inp rd) a.sweep (distinct s.threads [] s.pool).1 []
  (distinct s.threads [] s.pool).2 s.lengths=(.ok s',l)):
 rounds a c f inp entry (n+1) rd s=
  if f.search&&rd+width f<reach f inp then
   match spawn a c entry s' with
   | .ok s=>rounds a c f inp entry n (rd+width f) s
   | .error e=>⟨l,.error e⟩
  else rounds a c f inp entry n (rd+width f) s':=by
 rw[rounds,if_neg hn]
 dsimp only
 rewrite [hs]
 rfl
end PatternScan.Regex
