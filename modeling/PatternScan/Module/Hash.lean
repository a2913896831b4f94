import PatternScan.Digest.Hashes
import PatternScan.HashTable.Basic
import PatternScan.Module.Call
namespace PatternScan.Module.Hash
open Bytes Digest Scan.Source
def declarations:Object:=
 let function (result:Object)(kind:DigestKind):Object:=
  overloaded result [("ii",.hash (.ofRange kind)),("s",.hash (.ofText kind))]
 .record [("md5",function .noText .md5),("sha1",function .noText .sha1),("sha256",function .noText .sha256),
   ("checksum32",function .noInteger .checksum32),("crc32",function .noInteger .crc32)]
def digest (kind:DigestKind)(b:Bytes):Object:=
 let text (d:Bytes):Object:=.ofBytes (ofText (hex d))
 match kind with
 | .md5=>text (md5 b)
 | .sha1=>text (sha1 b)
 | .sha256=>text (sha256 b)
 | .checksum32=>.ofNat (checksum32 b).toNat
 | .crc32=>.ofNat (crc32 b).toNat
def missing:DigestKind→Object
 | .checksum32 | .crc32=>.noInteger
 | _=>.noText
abbrev Cache:=HashTable Object
def Cache.fresh:Cache:=.empty 17
def cacheKey (offset length:Int64):Bytes:=
 (pushLe ByteArray.empty offset.toUInt64.toNat 8).pushLe length.toUInt64.toNat 8
def cacheSpace? : DigestKind→Option Bytes
 | .md5=>some (ofText "md5")
 | .sha1=>some (ofText "sha1")
 | .sha256=>some (ofText "sha256")
 | _=>none
def ofRange (kind:DigestKind)(offset length:Int64)(blocks:List Scan.SourceBlock)(known:Cache):Object×Cache:=
 let key:=cacheKey offset length
 let cached?:=
  if allows offset length blocks then
   (cacheSpace? kind).bind fun space=>known.lookup? key (some space)
  else none
 match cached? with
 | some result=>(result,known)
 | none=>
  match range offset length blocks with
  | none=>(missing kind,known)
  | some pieces=>
   let result:=digest kind (concat pieces)
   (result,(cacheSpace? kind).elim known fun space=>known.add key (some space) result)
def call (f:HashFunction)(known:Cache)(c:Call):Object×Cache:=
 match f with
 | .ofText kind=>(digest kind (c.text 1),known)
 | .ofRange kind=>ofRange kind (c.integer 1) (c.integer 2) c.blocks known
end PatternScan.Module.Hash
