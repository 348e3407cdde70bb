import BlockDocument.Html.Markup
import BlockDocument.Text.Blank

/-!
# The content security policy

A host that shows a page can allow its one script by a nonce. The page then carries a policy that
lets that script run and nothing else, and that loads images and styles from the host's own
resources and from a few safe places.
-/

namespace BlockDocument.Html

/-- What a host tells about itself: the nonce of the script, and where its resources are. -/
structure Policy where
  nonce : Text
  source : Text
  deriving DecidableEq, Repr

namespace Policy

/-- The host's resources, in front of other sources. -/
def hostSource (p : Policy) : Text :=
  if p.source.trim.isEmpty then [] else p.source.trim ++ [' ']

/-- The policy in words. -/
def directives (p : Policy) : Text :=
  "default-src 'none'; img-src ".toList ++ p.hostSource ++ "https: data:; style-src ".toList
    ++ p.hostSource ++ "'unsafe-inline'; script-src 'nonce-".toList ++ p.nonce ++ "';".toList

/-- The tag that carries the policy. -/
def metaTag (p : Policy) : Text :=
  "<meta http-equiv=\"Content-Security-Policy\"".toList
    ++ writeAttribute "content".toList p.directives ++ ">".toList

/-- The attribute of the script that the policy allows. -/
def nonceAttribute (p : Policy) : Text := writeAttribute "nonce".toList p.nonce

end Policy

end BlockDocument.Html
