import BlockDocument.Failure
import BlockDocument.Html.Block
import BlockDocument.Html.Policy
import BlockDocument.Stylesheet

/-!
# Pages

A page stands on its own: it carries its stylesheet, its script and, for a host that gives a
nonce, a content security policy. The document's properties feed the header. A document that
could not be read gives a page that shows why.
-/

namespace BlockDocument.Html

/-- What a rendered page depends on besides the document. -/
structure PageOptions where
  theme : Theme := .default
  policy : Option Policy := none
  limits : SheetLimits := {}
  deriving DecidableEq, Repr

/-- The script behind the refresh button. -/
def refreshScript : List Text := [
  "(function () \x7b".toList,
  "  const host = typeof acquireVsCodeApi === 'function' ? acquireVsCodeApi() : undefined;".toList,
  "  const button = document.getElementById('osf-refresh');".toList,
  "  if (!button) \x7b".toList,
  "    return;".toList,
  "  \x7d".toList,
  "  button.addEventListener('click', function () \x7b".toList,
  "    if (host) \x7b".toList,
  "      host.postMessage(\x7b command: 'refresh' \x7d);".toList,
  "    \x7d else \x7b".toList,
  "      window.location.reload();".toList,
  "    \x7d".toList,
  "  \x7d);".toList,
  "\x7d)();".toList]

/-- The stylesheet of the page that shows a failure. -/
def failureStyles : List Text := [
  "body \x7b margin: 0; padding: 2rem; font-family: -apple-system,".toList ++
    " BlinkMacSystemFont, \"Segoe UI\", Helvetica, Arial, sans-serif; color: #1f2328; \x7d".toList,
  "h1 \x7b color: #cf222e; \x7d".toList,
  ".osf-error-location \x7b color: #57606a; \x7d".toList,
  ".osf-error \x7b padding: 1rem; background: #fff5f5; border: 1px solid".toList ++
    " #ffc1c1; border-radius: 6px; white-space: pre-wrap; \x7d".toList]

/-- Lines of a page, with a line feed between each two. -/
def joinLines (lines : List Text) : Text := Text.join ['\n'] lines

/-- The tag of the policy, if there is one. -/
def policyTag (policy : Option Policy) : Text := (policy.map Policy.metaTag).getD []

/-- The lines of the header that name the author and the date. -/
def bylines (properties : Option Meta) : List Markup :=
  let author := (properties.bind Meta.author?).map ("By ".toList ++ ·)
  optionalElement .p [.className "osf-author".toList] author
    ++ optionalElement .p [.className "osf-date".toList] (properties.bind Meta.date?)

/-- The page around rendered content. -/
def assemble (document : Document) (theme : Theme) (policy : Option Policy)
    (content : List Markup) : Text :=
  let title? := document.properties?.bind Meta.title?
  joinLines [
    "<!DOCTYPE html>".toList,
    "<html lang=\"en\">".toList,
    "<head>".toList,
    "  <meta charset=\"UTF-8\">".toList,
    "  ".toList ++ policyTag policy,
    "  <meta name=\"viewport\" content=\"width=device-width, initial-scale=1.0\">".toList,
    "  <meta name=\"generator\" content=\"osf-render\">".toList,
    "  <title>".toList ++ escape (title?.getD "OSF Preview".toList) ++ "</title>".toList,
    "  <style>".toList,
    theme.stylesheet,
    "  </style>".toList,
    "</head>".toList,
    "<body".toList ++ writeAttribute "class".toList theme.bodyClass ++ ">".toList,
    "<header class=\"osf-header\">".toList,
    "  ".toList ++ Markup.writeAll (textElement .h1 [] (title?.getD "Untitled Document".toList)),
    "  ".toList ++ Markup.writeAll (bylines document.properties?),
    "  <button id=\"osf-refresh\" class=\"osf-refresh\" type=\"button\">Refresh</button>".toList,
    "</header>".toList,
    "<main class=\"osf-content\">".toList,
    Markup.writeAll content,
    "</main>".toList,
    "<script".toList ++ (policy.map Policy.nonceAttribute).getD [] ++ ">".toList,
    joinLines refreshScript,
    "</script>".toList,
    "</body>".toList,
    "</html>".toList]

/-- The page that shows why a document could not be read. -/
def failurePage (message : Text) (policy : Option Policy) : Text :=
  let location := (lineReference? message).map fun line => "Line ".toList ++ Text.ofNat line
  joinLines [
    "<!DOCTYPE html>".toList,
    "<html lang=\"en\">".toList,
    "<head>".toList,
    "  <meta charset=\"UTF-8\">".toList,
    "  ".toList ++ policyTag policy,
    "  <meta name=\"viewport\" content=\"width=device-width, initial-scale=1.0\">".toList,
    "  <title>OSF Preview Error</title>".toList,
    "  <style>".toList,
    joinLines failureStyles,
    "  </style>".toList,
    "</head>".toList,
    "<body>".toList,
    "<h1>Preview unavailable</h1>".toList,
    "<p>The document could not be parsed.</p>".toList,
    Markup.writeAll (optionalElement .p [.className "osf-error-location".toList] location),
    Markup.writeAll (textElement .pre [.className "osf-error".toList] message),
    "</body>".toList,
    "</html>".toList]

/-- A page with the notices that came up while it was made. -/
structure RenderedPage where
  html : Text
  notices : List Notice
  deriving DecidableEq, Repr

/-- The page of a document. -/
def renderPage (options : PageOptions) (document : Document) : RenderedPage :=
  let rendering := blocksRendering options.limits document.blocks
  ⟨assemble document options.theme options.policy rendering.markup, rendering.notices⟩

/-- The page of a document, or of the failure to read it. -/
def previewPage (options : PageOptions) : Except Failure Document → RenderedPage
  | .ok document => renderPage options document
  | .error failure => ⟨failurePage failure.message options.policy, []⟩

end BlockDocument.Html
