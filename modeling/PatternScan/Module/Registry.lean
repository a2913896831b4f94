import PatternScan.Module.Dex
import PatternScan.Module.Dotnet
import PatternScan.Module.Elf
import PatternScan.Module.Hash
import PatternScan.Module.MachO
import PatternScan.Module.Math
import PatternScan.Module.Tests
import PatternScan.Module.Text
namespace PatternScan.Module
structure Input where
 blocks:List Scan.SourceBlock
 memory:Bool
 data:Option Bytes
structure Details where
 elf:Option Elf.File:=none
 machO:MachO.Image:=.nothing
 dex:Option Dex.File:=none
 pe:Option Pe.Image:=none
 digests:Hash.Cache:=.fresh
def names:List String:=
 ["tests","pe","elf","math","time","console","string","dotnet","hash","macho","dex"]
def declarations? (name:String):Option Object:=
 match name with
 | "tests" => some Tests.declarations
 | "math" => some Math.declarations
 | "time" => some (.record [("now",overloaded .noInteger [("",.time .now)])])
 | "console" => some Console.declarations
 | "string" => some Text.declarations
 | "hash" => some Hash.declarations
 | "elf" => some Elf.declarations
 | "macho" => some MachO.declarations
 | "dex" => some Dex.declarations
 | "pe" => some Pe.declarations
 | "dotnet" => some Dotnet.declarations
 | _=>none
def load (name:String)(i:Input)(d:Details):Object×Details:=
 match name with
 | "tests" => (Tests.load i.data,d)
 | "math" => (Math.load,d)
 | "hash" => (Hash.declarations,{d with digests:=.fresh})
 | "macho" =>
  let image:=MachO.image i.blocks i.memory
  (MachO.load image,{d with machO:=image})
 | "elf" =>
  let file:=Elf.file? i.blocks i.memory
  (Elf.load file,{d with elf:=file})
 | "dex" =>
  let file:=Dex.file? i.blocks
  (Dex.load file,{d with dex:=file})
 | "pe" =>
  let image:=Pe.image? i.blocks i.memory
  (Pe.load image,{d with pe:=image})
 | "dotnet" => (Dotnet.load ((Pe.file? i.blocks i.memory).map (·.1)),d)
 | _=>((declarations? name).getD default,d)
def call (f:Builtin)(d:Details)(c:Call):Object×Details:=
 match f with
 | .console _=>(.integer 1,d)
 | .hash f=>
  let (result,digests):=Hash.call f d.digests c
  (result,{d with digests:=digests})
 | .elf f=>(Elf.call f d.elf,d)
 | .macho f=>(MachO.call f d.machO c,d)
 | .dex f=>(Dex.call f d.dex c,d)
 | .math f=>(Math.call f c,d)
 | .pe f=>(Pe.call f d.pe c,d)
 | .text f=>(Text.call f c,d)
 | .tests f=>(Tests.call f c,d)
 | _=>(.noInteger,d)
end PatternScan.Module
