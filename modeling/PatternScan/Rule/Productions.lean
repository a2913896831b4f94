import PatternScan.Grammar.Table
import PatternScan.Rule.StringFlags
import PatternScan.Rule.Terminal
namespace PatternScan.Rule
open Grammar (Symbol Level)
inductive Phrase where
 | start | source | importing | rule | ruleOpened | ruleDeclared | metaSection | stringSection | condition
 | ruleModifiers | ruleModifier | tags | tagList | metas | metaEntry | strings | stringEntry | textNoted
 | regexpNoted | hexNoted | textModifiers | textModifier | regexpModifiers | regexpModifier | hexModifiers
 | hexModifier | identifier | arguments | argumentList | regexp | boolean | expression | loopOpened
 | loopIterates | andNoted | orNoted | iteration | loopVariables | iterator | set | range | enumeration
 | stringIterator | stringSet | stringSetOpened | stringList | stringItem | ruleSet | ruleSetOpened | ruleList
 | ruleItem | quantity | quantifier | primary
 deriving DecidableEq
inductive TextOperator where
 | contains | icontains | startsWith | istartsWith | endsWith | iendsWith | iequals
 deriving DecidableEq
inductive Comparison where
 | equal | notEqual | less | lessEqual | greater | greaterEqual
 deriving DecidableEq
inductive Arithmetic where
 | add | subtract | multiply | divide
 deriving DecidableEq
inductive BitOperator where
 | remainder | exclusive | conjunction | disjunction | shiftLeft | shiftRight
 deriving DecidableEq
inductive Quantifier where
 | all | any | none
 deriving DecidableEq
inductive Form where
 | part (n:Nat)
 | blank | leaveInclude | importModule | openRule | closeRule | metaSection | stringSection | noRuleFlags
 | addRuleFlag
 | ruleFlag (hidden everywhere:Bool)
 | noTags | firstTag | nextTag | nextMeta | metaText | metaInteger | metaNegative
 | metaBoolean (value:Bool)
 | noteLine | textString | regexpString | hexString | noModifiers | addTextModifier | addPlainModifier
 | modifier (flags:StringFlags)
 | xorAll | xorKey | xorRange
 | base64 (wide custom:Bool)
 | name | member | item | call | noArguments | firstArgument | nextArgument | regexp | boolean
 | truth (value:Bool)
 | textMatches
 | textOperation (op:TextOperator)
 | found | foundAt | foundIn | loopFailed | openLoop | closeLoop | someStrings | someRules | percentOfStrings
 | percentOfRules | someStringsIn | someStringsAt | negation | isDefined | conjunction | disjunction
 | comparison (op:Comparison)
 | overIterator | overStrings | firstVariable | nextVariable | objectIterator | setIterator | enumerated
 | ranged | range | firstMember | nextMember | allStrings | nextStrings | stringItem | nextRules | ruleItem
 | rulesWithPrefix | quantity
 | quantifier (q:Quantifier)
 | fileSize | entryPoint | readNumber | integer | float | text | countIn | count | offsetAt | offset
 | lengthAt | length | objectValue | negative
 | arithmetic (op:Arithmetic)
 | bits (op:BitOperator)
 | complement
def levels:List (Grammar.Grouping×List Terminal):=
 [(.left,[.orWord]),(.left,[.andWord]),(.right,[.notWord,.definedWord]),
  (.left,[.equal,.notEqual,.containsWord,.icontainsWord,.startsWithWord,.endsWithWord,
   .istartsWithWord,.iendsWithWord,.iequalsWord,.matchesWord]),
  (.left,[.less,.lessEqual,.greater,.greaterEqual]),(.left,[.bar]),(.left,[.caret]),
  (.left,[.ampersand]),(.left,[.shiftLeft,.shiftRight]),(.left,[.plus,.minus]),
  (.left,[.star,.backslash,.percent]),(.right,[.tilde,.unaryMinus])]
private def tok (x:Terminal):Symbol:=.token x.number
private def phr (x:Phrase):Symbol:=.phrase x.ctorIdx
structure RuleRow where
 result:Phrase
 parts:List Symbol
 form:Form
private def infixed (result:Phrase)(op:Terminal)(form:Form):RuleRow:=
 ⟨result,[phr .primary,tok op,phr .primary],form⟩
def ruleRows:List RuleRow:=
 [⟨.start,[phr .source,tok .endOfFile],.blank⟩,⟨.source,[],.blank⟩,⟨.source,[phr .source,phr .rule],.blank⟩,
  ⟨.source,[phr .source,phr .importing],.blank⟩,⟨.source,[phr .source,tok .error,phr .rule],.blank⟩,
  ⟨.source,[phr .source,tok .error,phr .importing],.blank⟩,
  ⟨.source,[phr .source,tok .error,tok .includeWord],.blank⟩,
  ⟨.source,[phr .source,tok .endOfInclude],.leaveInclude⟩,
  ⟨.source,[phr .source,tok .error,tok .endOfInclude],.leaveInclude⟩,
  ⟨.importing,[tok .importWord,tok .text],.importModule⟩,⟨.ruleOpened,[],.openRule⟩,⟨.ruleDeclared,[],.blank⟩,
  ⟨.rule,[phr .ruleModifiers,tok .ruleWord,tok .identifier,phr .ruleOpened,phr .tags,tok .leftBrace,
   phr .metaSection,phr .stringSection,phr .ruleDeclared,phr .condition,tok .rightBrace],.closeRule⟩,
  ⟨.metaSection,[],.blank⟩,⟨.metaSection,[tok .metaWord,tok .colon,phr .metas],.metaSection⟩,
  ⟨.stringSection,[],.blank⟩,⟨.stringSection,[tok .stringsWord,tok .colon,phr .strings],.stringSection⟩,
  ⟨.condition,[tok .conditionWord,tok .colon,phr .boolean],.part 2⟩,⟨.ruleModifiers,[],.noRuleFlags⟩,
  ⟨.ruleModifiers,[phr .ruleModifiers,phr .ruleModifier],.addRuleFlag⟩,
  ⟨.ruleModifier,[tok .privateWord],.ruleFlag true false⟩,
  ⟨.ruleModifier,[tok .globalWord],.ruleFlag false true⟩,⟨.tags,[],.noTags⟩,
  ⟨.tags,[tok .colon,phr .tagList],.part 1⟩,⟨.tagList,[tok .identifier],.firstTag⟩,
  ⟨.tagList,[phr .tagList,tok .identifier],.nextTag⟩,⟨.metas,[phr .metaEntry],.part 0⟩,
  ⟨.metas,[phr .metas,phr .metaEntry],.nextMeta⟩,⟨.metaEntry,[tok .identifier,tok .assign,tok .text],.metaText⟩,
  ⟨.metaEntry,[tok .identifier,tok .assign,tok .integer],.metaInteger⟩,
  ⟨.metaEntry,[tok .identifier,tok .assign,tok .minus,tok .integer],.metaNegative⟩,
  ⟨.metaEntry,[tok .identifier,tok .assign,tok .trueWord],.metaBoolean true⟩,
  ⟨.metaEntry,[tok .identifier,tok .assign,tok .falseWord],.metaBoolean false⟩]
def stringRows:List RuleRow:=
 [⟨.strings,[phr .stringEntry],.blank⟩,⟨.strings,[phr .strings,phr .stringEntry],.blank⟩,⟨.textNoted,[],.noteLine⟩,
  ⟨.stringEntry,[tok .stringName,tok .assign,phr .textNoted,tok .text,phr .textModifiers],.textString⟩,
  ⟨.regexpNoted,[],.noteLine⟩,
  ⟨.stringEntry,[tok .stringName,tok .assign,phr .regexpNoted,tok .regexp,phr .regexpModifiers],.regexpString⟩,
  ⟨.hexNoted,[],.noteLine⟩,
  ⟨.stringEntry,[tok .stringName,tok .assign,phr .hexNoted,tok .hexString,phr .hexModifiers],.hexString⟩,
  ⟨.textModifiers,[],.noModifiers⟩,⟨.textModifiers,[phr .textModifiers,phr .textModifier],.addTextModifier⟩,
  ⟨.textModifier,[tok .wideWord],.modifier {StringFlags.none with wide:=true}⟩,
  ⟨.textModifier,[tok .asciiWord],.modifier {StringFlags.none with ascii:=true}⟩,
  ⟨.textModifier,[tok .nocaseWord],.modifier {StringFlags.none with noCase:=true}⟩,
  ⟨.textModifier,[tok .fullwordWord],.modifier {StringFlags.none with fullWord:=true}⟩,
  ⟨.textModifier,[tok .privateWord],.modifier {StringFlags.none with hidden:=true}⟩,
  ⟨.textModifier,[tok .xorWord],.xorAll⟩,
  ⟨.textModifier,[tok .xorWord,tok .leftParenthesis,tok .integer,tok .rightParenthesis],.xorKey⟩,
  ⟨.textModifier,[tok .xorWord,tok .leftParenthesis,tok .integer,tok .minus,tok .integer,
   tok .rightParenthesis],.xorRange⟩,⟨.textModifier,[tok .base64Word],.base64 false false⟩,
  ⟨.textModifier,[tok .base64Word,tok .leftParenthesis,tok .text,tok .rightParenthesis],.base64 false true⟩,
  ⟨.textModifier,[tok .base64WideWord],.base64 true false⟩,
  ⟨.textModifier,[tok .base64WideWord,tok .leftParenthesis,tok .text,tok .rightParenthesis],.base64 true true⟩,
  ⟨.regexpModifiers,[],.noModifiers⟩,
  ⟨.regexpModifiers,[phr .regexpModifiers,phr .regexpModifier],.addPlainModifier⟩,
  ⟨.regexpModifier,[tok .wideWord],.modifier {StringFlags.none with wide:=true}⟩,
  ⟨.regexpModifier,[tok .asciiWord],.modifier {StringFlags.none with ascii:=true}⟩,
  ⟨.regexpModifier,[tok .nocaseWord],.modifier {StringFlags.none with noCase:=true}⟩,
  ⟨.regexpModifier,[tok .fullwordWord],.modifier {StringFlags.none with fullWord:=true}⟩,
  ⟨.regexpModifier,[tok .privateWord],.modifier {StringFlags.none with hidden:=true}⟩,
  ⟨.hexModifiers,[],.noModifiers⟩,⟨.hexModifiers,[phr .hexModifiers,phr .hexModifier],.addPlainModifier⟩,
  ⟨.hexModifier,[tok .privateWord],.modifier {StringFlags.none with hidden:=true}⟩]
def nameRows:List RuleRow:=
 [⟨.identifier,[tok .identifier],.name⟩,⟨.identifier,[phr .identifier,tok .dot,tok .identifier],.member⟩,
  ⟨.identifier,[phr .identifier,tok .leftBracket,phr .primary,tok .rightBracket],.item⟩,
  ⟨.identifier,[phr .identifier,tok .leftParenthesis,phr .arguments,tok .rightParenthesis],.call⟩,
  ⟨.arguments,[],.noArguments⟩,⟨.arguments,[phr .argumentList],.part 0⟩,
  ⟨.argumentList,[phr .expression],.firstArgument⟩,
  ⟨.argumentList,[phr .argumentList,tok .comma,phr .expression],.nextArgument⟩,⟨.regexp,[tok .regexp],.regexp⟩]
def booleanRows:List RuleRow:=
 [⟨.boolean,[phr .expression],.boolean⟩,⟨.expression,[tok .trueWord],.truth true⟩,
  ⟨.expression,[tok .falseWord],.truth false⟩,
  ⟨.expression,[phr .primary,tok .matchesWord,phr .regexp],.textMatches⟩,
  infixed .expression .containsWord (.textOperation .contains),
  infixed .expression .icontainsWord (.textOperation .icontains),
  infixed .expression .startsWithWord (.textOperation .startsWith),
  infixed .expression .istartsWithWord (.textOperation .istartsWith),
  infixed .expression .endsWithWord (.textOperation .endsWith),
  infixed .expression .iendsWithWord (.textOperation .iendsWith),
  infixed .expression .iequalsWord (.textOperation .iequals),⟨.expression,[tok .stringName],.found⟩,
  ⟨.expression,[tok .stringName,tok .atWord,phr .primary],.foundAt⟩,
  ⟨.expression,[tok .stringName,tok .inWord,phr .range],.foundIn⟩,
  ⟨.expression,[tok .forWord,phr .quantity,tok .error],.loopFailed⟩,⟨.loopOpened,[],.openLoop⟩,
  ⟨.loopIterates,[],.blank⟩,
  ⟨.expression,[tok .forWord,phr .quantity,phr .loopOpened,phr .iteration,tok .colon,phr .loopIterates,
   tok .leftParenthesis,phr .boolean,tok .rightParenthesis],.closeLoop⟩,
  ⟨.expression,[phr .quantity,tok .ofWord,phr .stringSet],.someStrings⟩,
  ⟨.expression,[phr .quantity,tok .ofWord,phr .ruleSet],.someRules⟩,
  ⟨.expression,[phr .primary,tok .percent,tok .ofWord,phr .stringSet],.percentOfStrings⟩,
  ⟨.expression,[phr .primary,tok .percent,tok .ofWord,phr .ruleSet],.percentOfRules⟩,
  ⟨.expression,[phr .quantity,tok .ofWord,phr .stringSet,tok .inWord,phr .range],.someStringsIn⟩,
  ⟨.expression,[phr .quantity,tok .ofWord,phr .stringSet,tok .atWord,phr .primary],.someStringsAt⟩,
  ⟨.expression,[tok .notWord,phr .boolean],.negation⟩,⟨.expression,[tok .definedWord,phr .boolean],.isDefined⟩,
  ⟨.andNoted,[],.blank⟩,⟨.expression,[phr .boolean,tok .andWord,phr .andNoted,phr .boolean],.conjunction⟩,
  ⟨.orNoted,[],.blank⟩,⟨.expression,[phr .boolean,tok .orWord,phr .orNoted,phr .boolean],.disjunction⟩,
  infixed .expression .less (.comparison .less),infixed .expression .greater (.comparison .greater),
  infixed .expression .lessEqual (.comparison .lessEqual),
  infixed .expression .greaterEqual (.comparison .greaterEqual),infixed .expression .equal (.comparison .equal),
  infixed .expression .notEqual (.comparison .notEqual),⟨.expression,[phr .primary],.part 0⟩,
  ⟨.expression,[tok .leftParenthesis,phr .expression,tok .rightParenthesis],.part 1⟩]
def setRows:List RuleRow:=
 [⟨.iteration,[phr .loopVariables,tok .inWord,phr .iterator],.overIterator⟩,
  ⟨.iteration,[tok .ofWord,phr .stringIterator],.overStrings⟩,⟨.loopVariables,[tok .identifier],.firstVariable⟩,
  ⟨.loopVariables,[phr .loopVariables,tok .comma,tok .identifier],.nextVariable⟩,
  ⟨.iterator,[phr .identifier],.objectIterator⟩,⟨.iterator,[phr .set],.setIterator⟩,
  ⟨.set,[tok .leftParenthesis,phr .enumeration,tok .rightParenthesis],.enumerated⟩,⟨.set,[phr .range],.ranged⟩,
  ⟨.range,[tok .leftParenthesis,phr .primary,tok .dotDot,phr .primary,tok .rightParenthesis],.range⟩,
  ⟨.enumeration,[phr .primary],.firstMember⟩,
  ⟨.enumeration,[phr .enumeration,tok .comma,phr .primary],.nextMember⟩,
  ⟨.stringIterator,[phr .stringSet],.part 0⟩,⟨.stringSetOpened,[],.blank⟩,
  ⟨.stringSet,[tok .leftParenthesis,phr .stringSetOpened,phr .stringList,tok .rightParenthesis],.part 2⟩,
  ⟨.stringSet,[tok .themWord],.allStrings⟩,⟨.stringList,[phr .stringItem],.part 0⟩,
  ⟨.stringList,[phr .stringList,tok .comma,phr .stringItem],.nextStrings⟩,
  ⟨.stringItem,[tok .stringName],.stringItem⟩,⟨.stringItem,[tok .stringWildcard],.stringItem⟩,
  ⟨.ruleSetOpened,[],.blank⟩,
  ⟨.ruleSet,[tok .leftParenthesis,phr .ruleSetOpened,phr .ruleList,tok .rightParenthesis],.part 2⟩,
  ⟨.ruleList,[phr .ruleItem],.part 0⟩,⟨.ruleList,[phr .ruleList,tok .comma,phr .ruleItem],.nextRules⟩,
  ⟨.ruleItem,[tok .identifier],.ruleItem⟩,⟨.ruleItem,[tok .identifier,tok .star],.rulesWithPrefix⟩,
  ⟨.quantity,[phr .primary],.quantity⟩,⟨.quantity,[phr .quantifier],.part 0⟩,
  ⟨.quantifier,[tok .allWord],.quantifier .all⟩,⟨.quantifier,[tok .anyWord],.quantifier .any⟩,
  ⟨.quantifier,[tok .noneWord],.quantifier .none⟩]
def valueRows:List RuleRow:=
 [⟨.primary,[tok .leftParenthesis,phr .primary,tok .rightParenthesis],.part 1⟩,
  ⟨.primary,[tok .filesizeWord],.fileSize⟩,⟨.primary,[tok .entrypointWord],.entryPoint⟩,
  ⟨.primary,[tok .integerFunction,tok .leftParenthesis,phr .primary,tok .rightParenthesis],.readNumber⟩,
  ⟨.primary,[tok .integer],.integer⟩,⟨.primary,[tok .float],.float⟩,⟨.primary,[tok .text],.text⟩,
  ⟨.primary,[tok .stringCount,tok .inWord,phr .range],.countIn⟩,⟨.primary,[tok .stringCount],.count⟩,
  ⟨.primary,[tok .stringOffset,tok .leftBracket,phr .primary,tok .rightBracket],.offsetAt⟩,
  ⟨.primary,[tok .stringOffset],.offset⟩,
  ⟨.primary,[tok .stringLength,tok .leftBracket,phr .primary,tok .rightBracket],.lengthAt⟩,
  ⟨.primary,[tok .stringLength],.length⟩,⟨.primary,[phr .identifier],.objectValue⟩,
  ⟨.primary,[tok .minus,phr .primary],.negative⟩,infixed .primary .plus (.arithmetic .add),
  infixed .primary .minus (.arithmetic .subtract),infixed .primary .star (.arithmetic .multiply),
  infixed .primary .backslash (.arithmetic .divide),infixed .primary .percent (.bits .remainder),
  infixed .primary .caret (.bits .exclusive),infixed .primary .ampersand (.bits .conjunction),
  infixed .primary .bar (.bits .disjunction),⟨.primary,[tok .tilde,phr .primary],.complement⟩,
  infixed .primary .shiftLeft (.bits .shiftLeft),infixed .primary .shiftRight (.bits .shiftRight),
  ⟨.primary,[phr .regexp],.part 0⟩]

/-- The whole grammar; the order of its rows decides between equal choices. -/
def rows:Array RuleRow:=
 (ruleRows++stringRows++nameRows++booleanRows++setRows++valueRows).toArray
def levelTable:Array (Option Level):=
 let blank:Array (Option Level):=Array.replicate Terminal.count none
 levels.zipIdx.foldl (fun table ((g,ts),i)=>
  ts.foldl (fun table x=>table.setIfInBounds x.number (some ⟨i+1,g⟩)) table) blank
def RuleRow.levelIn (table:Array (Option Level))(r:RuleRow):Option Level:=
 match r.form with
 | .negative=>table.getD Terminal.unaryMinus.number none
 | _=>
  r.parts.foldl (fun level s=>
   match s with
   | .token n=>table.getD n none
   | .phrase _=>level) none
def grammar:Grammar:=
 let table:=levelTable
 { tokenCount:=Terminal.count
   phraseCount:=Phrase.primary.ctorIdx+1
   productions:=rows.map fun r=>⟨r.result.ctorIdx,r.parts,r.levelIn table⟩
   levelOf:=fun n=>table.getD n none }
def table:Grammar.Table:=grammar.table
def forms:Array Form:=rows.map (·.form)
end PatternScan.Rule
