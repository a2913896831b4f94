import PatternScan.Bytes.Basic
namespace PatternScan.Digest
open Array Bytes
def checksum32 (b:Bytes):UInt32:=b.foldl (fun sum c=>sum+c.toUInt32) 0
def crcEntry (n:UInt32):UInt32:=
 (8).fold (fun _ _ c=>if c &&& 1==1 then (c >>> 1) ^^^ 0xedb88320 else c >>> 1) n
def crcTable:Array UInt32:=ofFn fun (i:Fin 256)=>crcEntry (UInt32.ofNat i)
def crc32 (b:Bytes):UInt32:=
 b.foldl (fun sum c=>
  crcTable.getD ((sum ^^^ c.toUInt32) &&& 0xff).toNat 0 ^^^ (sum >>> 8)) 0xffffffff ^^^ 0xffffffff
def padded (bigEndian:Bool)(b:Bytes):Bytes:=
 let zeros:=(119-b.size%64)%64
 let bits:=b.size*8
 let body:=b.push 0x80++Bytes.replicate zeros 0
 (List.range 8).foldl (fun b i=>
  let k:=if bigEndian then 7-i else i
  b.push (bits >>> (8*k)).toUInt8) body
def wordLe (b:Bytes)(i:Nat):UInt32:=
 (b.byteAt i).toUInt32 ||| ((b.byteAt (i+1)).toUInt32 <<< 8)
  ||| ((b.byteAt (i+2)).toUInt32 <<< 16) ||| ((b.byteAt (i+3)).toUInt32 <<< 24)
def wordBe (b:Bytes)(i:Nat):UInt32:=
 ((b.byteAt i).toUInt32 <<< 24) ||| ((b.byteAt (i+1)).toUInt32 <<< 16)
  ||| ((b.byteAt (i+2)).toUInt32 <<< 8) ||| (b.byteAt (i+3)).toUInt32
def rotateLeft (x n:UInt32):UInt32:=(x <<< n) ||| (x >>> (32-n))
def rotateRight (x n:UInt32):UInt32:=(x >>> n) ||| (x <<< (32-n))
def fold {S:Type}(step:Bytes→Nat→S→S)(b:Bytes)(s:S):S:=
 (b.size/64).fold (fun i _ s=>step b (64*i) s) s
def bytesLe (x:UInt32):List UInt8:=
 [x.toUInt8,(x >>> 8).toUInt8,(x >>> 16).toUInt8,(x >>> 24).toUInt8]
def bytesBe (x:UInt32):List UInt8:=(bytesLe x).reverse
structure Md5State where
 a:UInt32
 b:UInt32
 c:UInt32
 d:UInt32
namespace Md5
def start:Md5State:=⟨0x67452301,0xefcdab89,0x98badcfe,0x10325476⟩
def constants:Array UInt32:=
 #[ 0xd76aa478,0xe8c7b756,0x242070db,0xc1bdceee,0xf57c0faf,0x4787c62a,0xa8304613,0xfd469501,
  0x698098d8,0x8b44f7af,0xffff5bb1,0x895cd7be,0x6b901122,0xfd987193,0xa679438e,0x49b40821,
  0xf61e2562,0xc040b340,0x265e5a51,0xe9b6c7aa,0xd62f105d,0x02441453,0xd8a1e681,0xe7d3fbc8,
  0x21e1cde6,0xc33707d6,0xf4d50d87,0x455a14ed,0xa9e3e905,0xfcefa3f8,0x676f02d9,0x8d2a4c8a,
  0xfffa3942,0x8771f681,0x6d9d6122,0xfde5380c,0xa4beea44,0x4bdecfa9,0xf6bb4b60,0xbebfbc70,
  0x289b7ec6,0xeaa127fa,0xd4ef3085,0x04881d05,0xd9d4d039,0xe6db99e5,0x1fa27cf8,0xc4ac5665,
  0xf4292244,0x432aff97,0xab9423a7,0xfc93a039,0x655b59c3,0x8f0ccc92,0xffeff47d,0x85845dd1,
  0x6fa87e4f,0xfe2ce6e0,0xa3014314,0x4e0811a1,0xf7537e82,0xbd3af235,0x2ad7d2bb,0xeb86d391]
def shifts:Array UInt32:=
 #[7,12,17,22,5,9,14,20,4,11,16,23,6,10,15,21]
def round (block:Bytes)(at_:Nat)(i:Nat)(s:Md5State):Md5State:=
 let (f,k):=
  if i<16 then ((s.b &&& s.c) ||| (~~~s.b &&& s.d),i)
  else if i<32 then ((s.d &&& s.b) ||| (~~~s.d &&& s.c),(5*i+1)%16)
  else if i<48 then (s.b ^^^ s.c ^^^ s.d,(3*i+5)%16)
  else (s.c ^^^ (s.b ||| ~~~s.d),7*i%16)
 let sum:=f+s.a+constants.getD i 0+wordLe block (at_+4*k)
 ⟨s.d,s.b+rotateLeft sum (shifts.getD (i/16*4+i%4) 0),s.b,s.c⟩
def step (block:Bytes)(at_:Nat)(s:Md5State):Md5State:=
 let t:=(64).fold (fun i _ t=>round block at_ i t) s
 ⟨s.a+t.a,s.b+t.b,s.c+t.c,s.d+t.d⟩
end Md5
def md5 (message:Bytes):Bytes:=
 let s:=fold Md5.step (padded false message) Md5.start
 ofList ([s.a,s.b,s.c,s.d].flatMap bytesLe)
structure Sha1State where
 a:UInt32
 b:UInt32
 c:UInt32
 d:UInt32
 e:UInt32
namespace Sha1
def start:Sha1State:=⟨0x67452301,0xefcdab89,0x98badcfe,0x10325476,0xc3d2e1f0⟩
def schedule (block:Bytes)(at_:Nat):Array UInt32:=
 let first:Array UInt32:=ofFn fun (i:Fin 16)=>wordBe block (at_+4*i)
 (64).fold (fun i _ w=>
  let t:=i+16
  w.push (rotateLeft (w.getD (t-3) 0 ^^^ w.getD (t-8) 0 ^^^ w.getD (t-14) 0 ^^^ w.getD (t-16) 0) 1)) first
def round (w:Array UInt32)(i:Nat)(s:Sha1State):Sha1State:=
 let (f,k):UInt32×UInt32:=
  if i<20 then ((s.b &&& s.c) ||| (~~~s.b &&& s.d),0x5a827999)
  else if i<40 then (s.b ^^^ s.c ^^^ s.d,0x6ed9eba1)
  else if i<60 then ((s.b &&& s.c) ||| (s.b &&& s.d) ||| (s.c &&& s.d),0x8f1bbcdc)
  else (s.b ^^^ s.c ^^^ s.d,0xca62c1d6)
 ⟨rotateLeft s.a 5+f+s.e+k+w.getD i 0,s.a,rotateLeft s.b 30,s.c,s.d⟩
def step (block:Bytes)(at_:Nat)(s:Sha1State):Sha1State:=
 let w:=schedule block at_
 let t:=(80).fold (fun i _ t=>round w i t) s
 ⟨s.a+t.a,s.b+t.b,s.c+t.c,s.d+t.d,s.e+t.e⟩
end Sha1
def sha1 (message:Bytes):Bytes:=
 let s:=fold Sha1.step (padded true message) Sha1.start
 ofList ([s.a,s.b,s.c,s.d,s.e].flatMap bytesBe)
structure Sha256State where
 a:UInt32
 b:UInt32
 c:UInt32
 d:UInt32
 e:UInt32
 f:UInt32
 g:UInt32
 h:UInt32
namespace Sha256
def start:Sha256State:=
 ⟨0x6a09e667,0xbb67ae85,0x3c6ef372,0xa54ff53a,0x510e527f,0x9b05688c,0x1f83d9ab,0x5be0cd19⟩
def constants:Array UInt32:=
 #[ 0x428a2f98,0x71374491,0xb5c0fbcf,0xe9b5dba5,0x3956c25b,0x59f111f1,0x923f82a4,0xab1c5ed5,
  0xd807aa98,0x12835b01,0x243185be,0x550c7dc3,0x72be5d74,0x80deb1fe,0x9bdc06a7,0xc19bf174,
  0xe49b69c1,0xefbe4786,0x0fc19dc6,0x240ca1cc,0x2de92c6f,0x4a7484aa,0x5cb0a9dc,0x76f988da,
  0x983e5152,0xa831c66d,0xb00327c8,0xbf597fc7,0xc6e00bf3,0xd5a79147,0x06ca6351,0x14292967,
  0x27b70a85,0x2e1b2138,0x4d2c6dfc,0x53380d13,0x650a7354,0x766a0abb,0x81c2c92e,0x92722c85,
  0xa2bfe8a1,0xa81a664b,0xc24b8b70,0xc76c51a3,0xd192e819,0xd6990624,0xf40e3585,0x106aa070,
  0x19a4c116,0x1e376c08,0x2748774c,0x34b0bcb5,0x391c0cb3,0x4ed8aa4a,0x5b9cca4f,0x682e6ff3,
  0x748f82ee,0x78a5636f,0x84c87814,0x8cc70208,0x90befffa,0xa4506ceb,0xbef9a3f7,0xc67178f2]
def schedule (block:Bytes)(at_:Nat):Array UInt32:=
 let first:Array UInt32:=ofFn fun (i:Fin 16)=>wordBe block (at_+4*i)
 (48).fold (fun i _ w=>
  let t:=i+16
  let x:=w.getD (t-15) 0
  let y:=w.getD (t-2) 0
  let s:=rotateRight x 7 ^^^ rotateRight x 18 ^^^ (x >>> 3)
  let u:=rotateRight y 17 ^^^ rotateRight y 19 ^^^ (y >>> 10)
  w.push (w.getD (t-16) 0+s+w.getD (t-7) 0+u)) first
def round (w:Array UInt32)(i:Nat)(s:Sha256State):Sha256State:=
 let high:=rotateRight s.e 6 ^^^ rotateRight s.e 11 ^^^ rotateRight s.e 25
 let choice:=(s.e &&& s.f) ^^^ (~~~s.e &&& s.g)
 let x:=s.h+high+choice+constants.getD i 0+w.getD i 0
 let low:=rotateRight s.a 2 ^^^ rotateRight s.a 13 ^^^ rotateRight s.a 22
 let majority:=(s.a &&& s.b) ^^^ (s.a &&& s.c) ^^^ (s.b &&& s.c)
 ⟨x+low+majority,s.a,s.b,s.c,s.d+x,s.e,s.f,s.g⟩
def step (block:Bytes)(at_:Nat)(s:Sha256State):Sha256State:=
 let w:=schedule block at_
 let t:=(64).fold (fun i _ t=>round w i t) s
 ⟨s.a+t.a,s.b+t.b,s.c+t.c,s.d+t.d,s.e+t.e,s.f+t.f,s.g+t.g,s.h+t.h⟩
end Sha256
def sha256 (message:Bytes):Bytes:=
 let s:=fold Sha256.step (padded true message) Sha256.start
 ofList ([s.a,s.b,s.c,s.d,s.e,s.f,s.g,s.h].flatMap bytesBe)
end PatternScan.Digest
