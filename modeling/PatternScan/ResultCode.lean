namespace PatternScan
inductive ResultCode where
 | success | insufficientMemory | couldNotAttachToProcess | couldNotOpenFile | couldNotMapFile | invalidFile
 | corruptFile | unsupportedFileVersion | invalidRegularExpression | invalidHexString | syntaxError
 | loopNestingLimitExceeded | duplicatedLoopIdentifier | duplicatedIdentifier | duplicatedTagIdentifier
 | duplicatedMetaIdentifier | duplicatedStringIdentifier | unreferencedString | undefinedString
 | undefinedIdentifier | misplacedAnonymousString | includesCircularReference | includeDepthExceeded
 | wrongType | execStackOverflow | scanTimeout | tooManyScanThreads | callbackError | invalidArgument
 | tooManyMatches | internalFatalError | nestedForOfLoop | invalidFieldName | unknownModule | notAStructure
 | notIndexable | notAFunction | invalidFormat | tooManyArguments | wrongArguments | wrongReturnType
 | duplicatedStructureMember | emptyString | divisionByZero | regularExpressionTooLarge | tooManyReFibers
 | couldNotReadProcessMemory | invalidExternalVariableType | regularExpressionTooComplex | invalidModuleName
 | tooManyStrings | integerOverflow | callbackRequired | invalidOperand | couldNotReadFile
 | duplicatedExternalVariable | invalidModuleData | writingFile | invalidModifier | duplicatedModifier
 | blockNotReady | invalidPercentage | identifierMatchesWildcard | invalidValue | tooSlowScanning
 | unknownEscapeSequence
 | other (number:Int)
 deriving DecidableEq
namespace ResultCode
def table:List (ResultCode×Nat×String):=[
 (.success,0,"SUCCESS"),(.insufficientMemory,1,"INSUFFICIENT_MEMORY"),
 (.couldNotAttachToProcess,2,"COULD_NOT_ATTACH_TO_PROCESS"),(.couldNotOpenFile,3,"COULD_NOT_OPEN_FILE"),
 (.couldNotMapFile,4,"COULD_NOT_MAP_FILE"),(.invalidFile,6,"INVALID_FILE"),(.corruptFile,7,"CORRUPT_FILE"),
 (.unsupportedFileVersion,8,"UNSUPPORTED_FILE_VERSION"),
 (.invalidRegularExpression,9,"INVALID_REGULAR_EXPRESSION"),(.invalidHexString,10,"INVALID_HEX_STRING"),
 (.syntaxError,11,"SYNTAX_ERROR"),(.loopNestingLimitExceeded,12,"LOOP_NESTING_LIMIT_EXCEEDED"),
 (.duplicatedLoopIdentifier,13,"DUPLICATED_LOOP_IDENTIFIER"),
 (.duplicatedIdentifier,14,"DUPLICATED_IDENTIFIER"),(.duplicatedTagIdentifier,15,"DUPLICATED_TAG_IDENTIFIER"),
 (.duplicatedMetaIdentifier,16,"DUPLICATED_META_IDENTIFIER"),
 (.duplicatedStringIdentifier,17,"DUPLICATED_STRING_IDENTIFIER"),
 (.unreferencedString,18,"UNREFERENCED_STRING"),(.undefinedString,19,"UNDEFINED_STRING"),
 (.undefinedIdentifier,20,"UNDEFINED_IDENTIFIER"),(.misplacedAnonymousString,21,"MISPLACED_ANONYMOUS_STRING"),
 (.includesCircularReference,22,"INCLUDES_CIRCULAR_REFERENCE"),
 (.includeDepthExceeded,23,"INCLUDE_DEPTH_EXCEEDED"),(.wrongType,24,"WRONG_TYPE"),
 (.execStackOverflow,25,"EXEC_STACK_OVERFLOW"),(.scanTimeout,26,"SCAN_TIMEOUT"),
 (.tooManyScanThreads,27,"TOO_MANY_SCAN_THREADS"),(.callbackError,28,"CALLBACK_ERROR"),
 (.invalidArgument,29,"INVALID_ARGUMENT"),(.tooManyMatches,30,"TOO_MANY_MATCHES"),
 (.internalFatalError,31,"INTERNAL_FATAL_ERROR"),(.nestedForOfLoop,32,"NESTED_FOR_OF_LOOP"),
 (.invalidFieldName,33,"INVALID_FIELD_NAME"),(.unknownModule,34,"UNKNOWN_MODULE"),
 (.notAStructure,35,"NOT_A_STRUCTURE"),(.notIndexable,36,"NOT_INDEXABLE"),(.notAFunction,37,"NOT_A_FUNCTION"),
 (.invalidFormat,38,"INVALID_FORMAT"),(.tooManyArguments,39,"TOO_MANY_ARGUMENTS"),
 (.wrongArguments,40,"WRONG_ARGUMENTS"),(.wrongReturnType,41,"WRONG_RETURN_TYPE"),
 (.duplicatedStructureMember,42,"DUPLICATED_STRUCTURE_MEMBER"),(.emptyString,43,"EMPTY_STRING"),
 (.divisionByZero,44,"DIVISION_BY_ZERO"),(.regularExpressionTooLarge,45,"REGULAR_EXPRESSION_TOO_LARGE"),
 (.tooManyReFibers,46,"TOO_MANY_RE_FIBERS"),(.couldNotReadProcessMemory,47,"COULD_NOT_READ_PROCESS_MEMORY"),
 (.invalidExternalVariableType,48,"INVALID_EXTERNAL_VARIABLE_TYPE"),
 (.regularExpressionTooComplex,49,"REGULAR_EXPRESSION_TOO_COMPLEX"),
 (.invalidModuleName,50,"INVALID_MODULE_NAME"),(.tooManyStrings,51,"TOO_MANY_STRINGS"),
 (.integerOverflow,52,"INTEGER_OVERFLOW"),(.callbackRequired,53,"CALLBACK_REQUIRED"),
 (.invalidOperand,54,"INVALID_OPERAND"),(.couldNotReadFile,55,"COULD_NOT_READ_FILE"),
 (.duplicatedExternalVariable,56,"DUPLICATED_EXTERNAL_VARIABLE"),
 (.invalidModuleData,57,"INVALID_MODULE_DATA"),(.writingFile,58,"WRITING_FILE"),
 (.invalidModifier,59,"INVALID_MODIFIER"),(.duplicatedModifier,60,"DUPLICATED_MODIFIER"),
 (.blockNotReady,61,"BLOCK_NOT_READY"),(.invalidPercentage,62,"INVALID_PERCENTAGE"),
 (.identifierMatchesWildcard,63,"IDENTIFIER_MATCHES_WILDCARD"),(.invalidValue,64,"INVALID_VALUE"),
 (.tooSlowScanning,65,"TOO_SLOW_SCANNING"),(.unknownEscapeSequence,66,"UNKNOWN_ESCAPE_SEQUENCE")]
def ofNumber (n:Int):ResultCode:=
 match table.find? fun row=>(row.2.1:Int)=n with
 | some row=>row.1
 | none=>.other n
def name (c:ResultCode):String:=
 match c with
 | .other n=>toString n
 | c=>
  match table.find? fun row=>row.1=c with
  | some row=>row.2.2
  | none=>""
end ResultCode
end PatternScan
