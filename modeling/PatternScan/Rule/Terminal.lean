namespace PatternScan.Rule
inductive Terminal where
 | endOfFile | error | invalid | endOfInclude | dotDot | ruleWord | privateWord | globalWord | metaWord
 | stringsWord | conditionWord | identifier | stringName | stringCount | stringOffset | stringLength
 | stringWildcard | integer | float | integerFunction | text | hexString | regexp | asciiWord | wideWord
 | xorWord | base64Word | base64WideWord | nocaseWord | fullwordWord | atWord | filesizeWord | entrypointWord
 | allWord | anyWord | noneWord | inWord | ofWord | forWord | themWord | matchesWord | containsWord
 | startsWithWord | endsWithWord | icontainsWord | istartsWithWord | iendsWithWord | iequalsWord | importWord
 | trueWord | falseWord | orWord | andWord | notWord | definedWord | equal | notEqual | less | lessEqual
 | greater | greaterEqual | shiftLeft | shiftRight | bar | caret | ampersand | plus | minus | star | backslash
 | percent | tilde | unaryMinus | includeWord | leftBrace | rightBrace | colon | assign | leftParenthesis
 | rightParenthesis | dot | leftBracket | rightBracket | comma
 deriving DecidableEq
namespace Terminal
def names:Array String:=
 #["end of file","error","invalid token","end of included file","..","<rule>","<private>",
  "<global>","<meta>","<strings>","<condition>","identifier","string identifier",
  "string count","string offset","string length","string identifier with wildcard",
  "integer number","floating point number","integer function","text string","hex string",
  "regular expression","<ascii>","<wide>","<xor>","<base64>","<base64wide>","<nocase>",
  "<fullword>","<at>","<filesize>","<entrypoint>","<all>","<any>","<none>","<in>","<of>",
  "<for>","<them>","<matches>","<contains>","<startswith>","<endswith>","<icontains>",
  "<istartswith>","<iendswith>","<iequals>","<import>","<true>","<false>","<or>","<and>",
  "<not>","<defined>","==","!=","<","<=",">",">=","<<",">>","'|'","'^'","'&'","'+'",
  "'-'","'*'","'\\\\'","'%'","'~'","UNARY_MINUS","include","'\x7b'","'\x7d'","':'","'='",
  "'('","')'","'.'","'['","']'","','"]
def number (t:Terminal):Nat:=t.ctorIdx
def count:Nat:=names.size
def nameOf (n:Nat):String:=names.getD n ""
def keywords:List (String×Terminal):=
 [("private",.privateWord),("global",.globalWord),("rule",.ruleWord),("meta",.metaWord),
  ("strings",.stringsWord),("ascii",.asciiWord),("wide",.wideWord),("xor",.xorWord),
  ("base64",.base64Word),("base64wide",.base64WideWord),("fullword",.fullwordWord),
  ("nocase",.nocaseWord),("condition",.conditionWord),("true",.trueWord),
  ("false",.falseWord),("not",.notWord),("and",.andWord),("or",.orWord),("at",.atWord),
  ("in",.inWord),("of",.ofWord),("them",.themWord),("for",.forWord),("all",.allWord),
  ("any",.anyWord),("none",.noneWord),("entrypoint",.entrypointWord),
  ("filesize",.filesizeWord),("matches",.matchesWord),("contains",.containsWord),
  ("startswith",.startsWithWord),("endswith",.endsWithWord),("icontains",.icontainsWord),
  ("istartswith",.istartsWithWord),("iendswith",.iendsWithWord),("iequals",.iequalsWord),
  ("import",.importWord),("defined",.definedWord)]
def ofByte (c:UInt8):Terminal:=
 match Char.ofNat c.toNat with
 | '|' => .bar
 | '^' => .caret
 | '&' => .ampersand
 | '+' => .plus
 | '-' => .minus
 | '*' => .star
 | '\\' => .backslash
 | '%' => .percent
 | '~' => .tilde
 | '\x7b' => .leftBrace
 | '\x7d' => .rightBrace
 | ':' => .colon
 | '=' => .assign
 | '(' => .leftParenthesis
 | ')' => .rightParenthesis
 | '.' => .dot
 | '[' => .leftBracket
 | ']' => .rightBracket
 | ',' => .comma
 | '<' => .less
 | '>' => .greater
 | _=>.invalid
end Terminal
structure NumberReader where
 bytes:Nat
 signed:Bool
 bigEndian:Bool
 deriving DecidableEq
def NumberReader.byName:List (String×NumberReader):=
 [("int8",⟨1,true,false⟩),("int16",⟨2,true,false⟩),("int32",⟨4,true,false⟩),
  ("uint8",⟨1,false,false⟩),("uint16",⟨2,false,false⟩),("uint32",⟨4,false,false⟩),
  ("int8be",⟨1,true,true⟩),("int16be",⟨2,true,true⟩),("int32be",⟨4,true,true⟩),
  ("uint8be",⟨1,false,true⟩),("uint16be",⟨2,false,true⟩),("uint32be",⟨4,false,true⟩)]
end PatternScan.Rule
