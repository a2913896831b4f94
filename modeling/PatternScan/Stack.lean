namespace PatternScan
structure Stack (α:Type) where
 items:List α
 capacity:Nat
namespace Stack
variable {α:Type}
def empty (capacity:Nat):Stack α:=⟨[],capacity⟩
def size (s:Stack α):Nat:=s.items.length
def push (s:Stack α)(a:α):Stack α:=
 ⟨a::s.items,if s.items.length=s.capacity then 2*s.capacity else s.capacity⟩
def pop? (s:Stack α):Option (α×Stack α):=
 match s.items with
 | []=>none
 | a::rest=>some (a,{s with items:=rest})
end Stack
end PatternScan
