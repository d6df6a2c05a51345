import IncludeOnce.Search

/-! What can stop a scan. -/
namespace IncludeOnce

inductive ScanError
  | unresolved (cause : ResolutionError)
  | unreadable (path : Path) (cause : IoError)
  | errorDirective (message : Text)
  | invalidDirective (name : Text)
  | invalidHeader (kind : RequestKind)
  | expectedIdentifier
  | invalidCondition (piece : Text)
  | elseIfWithoutIf
  | elseWithoutIf
  | elseIfAfterElse
  | elseAfterElse
  | endWithoutIf
  | unterminated
  | depthExceeded (depth : Nat)
deriving DecidableEq

namespace ScanError

/-- A short name of the cause. -/
def code : ScanError → String
  | .unresolved (.notFound _) => "include_file_not_found"
  | .unresolved (.unreadable _ _) | .unreadable _ _ => "io_error"
  | .errorDirective _ => "error_directive"
  | .invalidDirective _ => "invalid_directive"
  | .invalidHeader _ => "invalid_include_path"
  | .expectedIdentifier => "expected_identifier"
  | .invalidCondition _ => "invalid_conditional_expression"
  | .elseIfWithoutIf | .elseWithoutIf | .elseIfAfterElse | .elseAfterElse | .endWithoutIf
  | .unterminated => "unbalanced_conditional"
  | .depthExceeded _ => "include_depth_exceeded"

def message : ScanError → String
  | .unresolved cause => cause.message
  | .unreadable path cause => s!"cannot read {path.display}: {cause.message}"
  | .errorDirective message => s!"#error {message.display}"
  | .invalidDirective name => s!"invalid preprocessing directive #{name.display}"
  | .invalidHeader kind => s!"#{kind.word} expects \"FILENAME\" or <FILENAME>"
  | .expectedIdentifier => "macro names must be identifiers"
  | .invalidCondition piece => s!"invalid conditional expression '{piece.display}'"
  | .elseIfWithoutIf => "#elif without #if"
  | .elseWithoutIf => "#else without #if"
  | .elseIfAfterElse => "#elif after #else"
  | .elseAfterElse => "#else after #else"
  | .endWithoutIf => "#endif without #if"
  | .unterminated => "unterminated conditional directive"
  | .depthExceeded depth => s!"#include nested depth {depth} exceeds maximum"

end ScanError

end IncludeOnce
