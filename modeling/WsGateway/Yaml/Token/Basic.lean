import WsGateway.Text.Octets

/-!
# YAML tokens

The pieces that a YAML text is cut into. What tags are made of is held as octets, since escapes
in a tag need not spell well-formed characters.
-/

namespace WsGateway.Yaml

inductive Style where
  | plain
  | singleQuoted
  | doubleQuoted
  | literal
  | folded
  deriving DecidableEq, Repr

inductive Token where
  | streamStart
  | streamEnd
  | versionDirective (major minor : Nat)
  | tagDirective (handle : String) (target : Text.Octets)
  | documentStart
  | documentEnd
  | blockSequenceStart
  | blockMappingStart
  | blockEnd
  | flowSequenceStart
  | flowSequenceEnd
  | flowMappingStart
  | flowMappingEnd
  | blockEntry
  | flowEntry
  | key
  | value
  | alias (name : String)
  | anchor (name : String)
  | tag (handle : String) (suffix : Text.Octets)
  | scalar (text : String) (style : Style)
  deriving DecidableEq, Repr

end WsGateway.Yaml
