namespace PatternScan
structure StringFlags where
 referenced:Bool
 hexadecimal:Bool
 noCase:Bool
 ascii:Bool
 wide:Bool
 regexp:Bool
 linear:Bool
 fullWord:Bool
 anonymous:Bool
 singleMatch:Bool
 literal:Bool
 fitsInAtom:Bool
 lastInRule:Bool
 chainPart:Bool
 chainTail:Bool
 fixedOffset:Bool
 greedy:Bool
 dotAll:Bool
 disabled:Bool
 xor:Bool
 hidden:Bool
 base64:Bool
 base64Wide:Bool
 deriving DecidableEq,Inhabited
namespace StringFlags
def ofNat (n:Nat):StringFlags where
 referenced:=n.testBit 0
 hexadecimal:=n.testBit 1
 noCase:=n.testBit 2
 ascii:=n.testBit 3
 wide:=n.testBit 4
 regexp:=n.testBit 5
 linear:=n.testBit 6
 fullWord:=n.testBit 7
 anonymous:=n.testBit 8
 singleMatch:=n.testBit 9
 literal:=n.testBit 10
 fitsInAtom:=n.testBit 11
 lastInRule:=n.testBit 12
 chainPart:=n.testBit 13
 chainTail:=n.testBit 14
 fixedOffset:=n.testBit 15
 greedy:=n.testBit 16
 dotAll:=n.testBit 17
 disabled:=n.testBit 18
 xor:=n.testBit 19
 hidden:=n.testBit 20
 base64:=n.testBit 21
 base64Wide:=n.testBit 22
def none:StringFlags:=ofNat 0
def toNat (f:StringFlags):Nat:=
 [(f.referenced,0x1),(f.hexadecimal,0x2),(f.noCase,0x4),(f.ascii,0x8),(f.wide,0x10),(f.regexp,0x20),
  (f.linear,0x40),(f.fullWord,0x80),(f.anonymous,0x100),(f.singleMatch,0x200),(f.literal,0x400),
  (f.fitsInAtom,0x800),(f.lastInRule,0x1000),(f.chainPart,0x2000),(f.chainTail,0x4000),(f.fixedOffset,0x8000),
  (f.greedy,0x10000),(f.dotAll,0x20000),(f.disabled,0x40000),(f.xor,0x80000),(f.hidden,0x100000),
  (f.base64,0x200000),(f.base64Wide,0x400000)].foldl (fun r p=>if p.1 then r+p.2 else r) 0
end StringFlags
end PatternScan
