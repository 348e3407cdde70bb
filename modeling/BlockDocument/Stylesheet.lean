import BlockDocument.Theme

/-!
# The stylesheet of a preview

Every page carries the same baseline stylesheet. A theme adds one rule behind it, which sets the
accent colour and the font for pages of that theme's class.
-/

namespace BlockDocument

/-- The lines of the stylesheet that every theme builds on. -/
def baselineLines : List String := [
  "/* OSF preview baseline stylesheet */",
  ":root \x7b",
  "  --osf-accent: #0066cc;",
  "  --osf-font: -apple-system, BlinkMacSystemFont, \"Segoe UI\", Helvetica, Arial, sans-serif;",
  "  --osf-mono: \"SFMono-Regular\", Consolas, \"Liberation Mono\", monospace;",
  "  --osf-border: #d0d7de;",
  "  --osf-muted: #57606a;",
  "  --osf-surface: #f6f8fa;",
  "\x7d",
  "",
  "body \x7b",
  "  margin: 0;",
  "  padding: 2rem;",
  "  font-family: var(--osf-font);",
  "  line-height: 1.6;",
  "  color: #1f2328;",
  "  background: #ffffff;",
  "\x7d",
  "",
  ".osf-header \x7b",
  "  border-bottom: 2px solid var(--osf-accent);",
  "  margin-bottom: 2rem;",
  "  padding-bottom: 1rem;",
  "  position: relative;",
  "\x7d",
  "",
  ".osf-header h1 \x7b",
  "  margin: 0 0 0.25rem;",
  "  color: var(--osf-accent);",
  "\x7d",
  "",
  ".osf-author,",
  ".osf-date \x7b",
  "  margin: 0;",
  "  color: var(--osf-muted);",
  "\x7d",
  "",
  ".osf-refresh \x7b",
  "  position: absolute;",
  "  top: 0;",
  "  right: 0;",
  "  padding: 0.35rem 0.9rem;",
  "  border: 1px solid var(--osf-accent);",
  "  border-radius: 4px;",
  "  background: transparent;",
  "  color: var(--osf-accent);",
  "  cursor: pointer;",
  "\x7d",
  "",
  ".osf-content > * \x7b",
  "  margin-bottom: 2rem;",
  "\x7d",
  "",
  ".osf-doc h1,",
  ".osf-doc h2,",
  ".osf-doc h3 \x7b",
  "  color: var(--osf-accent);",
  "\x7d",
  "",
  "blockquote \x7b",
  "  margin: 1rem 0;",
  "  padding: 0.5rem 1rem;",
  "  border-left: 4px solid var(--osf-accent);",
  "  background: var(--osf-surface);",
  "  color: var(--osf-muted);",
  "\x7d",
  "",
  "code,",
  "pre \x7b",
  "  font-family: var(--osf-mono);",
  "\x7d",
  "",
  "pre \x7b",
  "  padding: 1rem;",
  "  overflow-x: auto;",
  "  background: var(--osf-surface);",
  "  border: 1px solid var(--osf-border);",
  "  border-radius: 6px;",
  "\x7d",
  "",
  ".osf-slide \x7b",
  "  padding: 1.5rem 2rem;",
  "  border: 1px solid var(--osf-border);",
  "  border-radius: 8px;",
  "  box-shadow: 0 1px 3px rgba(0, 0, 0, 0.08);",
  "\x7d",
  "",
  ".osf-slide h2 \x7b",
  "  margin-top: 0;",
  "  color: var(--osf-accent);",
  "\x7d",
  "",
  ".osf-slide.layout-two-column .osf-slide-body \x7b",
  "  column-count: 2;",
  "\x7d",
  "",
  ".osf-slide.layout-three-column .osf-slide-body \x7b",
  "  column-count: 3;",
  "\x7d",
  "",
  ".osf-slide img,",
  ".osf-doc img \x7b",
  "  max-width: 100%;",
  "\x7d",
  "",
  "table \x7b",
  "  border-collapse: collapse;",
  "  width: 100%;",
  "\x7d",
  "",
  "th,",
  "td \x7b",
  "  padding: 0.4rem 0.75rem;",
  "  text-align: left;",
  "\x7d",
  "",
  "th \x7b",
  "  background: var(--osf-surface);",
  "\x7d",
  "",
  ".osf-sheet td,",
  ".osf-sheet th,",
  ".osf-table-bordered td,",
  ".osf-table-bordered th \x7b",
  "  border: 1px solid var(--osf-border);",
  "\x7d",
  "",
  ".osf-table-striped tbody tr:nth-child(even) \x7b",
  "  background: var(--osf-surface);",
  "\x7d",
  "",
  "caption \x7b",
  "  caption-side: top;",
  "  font-weight: 600;",
  "  padding-bottom: 0.5rem;",
  "  text-align: left;",
  "\x7d",
  "",
  ".osf-sheet-empty,",
  ".osf-sheet-note \x7b",
  "  color: var(--osf-muted);",
  "  font-style: italic;",
  "  text-align: center;",
  "\x7d",
  "",
  ".osf-chart,",
  ".osf-unknown \x7b",
  "  padding: 1rem;",
  "  border: 1px dashed var(--osf-border);",
  "  border-radius: 6px;",
  "  color: var(--osf-muted);",
  "\x7d",
  "",
  ".osf-code-caption,",
  ".osf-diagram-engine \x7b",
  "  margin: 0 0 0.5rem;",
  "  color: var(--osf-muted);",
  "  font-size: 0.9em;",
  "\x7d",
  "",
  ".osf-error \x7b",
  "  color: #cf222e;",
  "  white-space: pre-wrap;",
  "\x7d"]

/-- The stylesheet that every theme builds on. -/
def baselineStylesheet : Text := (baselineLines.map fun line => line.toList ++ ['\n']).flatten

/-- The baseline stylesheet, and behind it the rule of a theme. -/
def Theme.stylesheet (theme : Theme) : Text :=
  baselineStylesheet ++ "\n.".toList ++ theme.bodyClass ++ " \x7b\n  --osf-accent: ".toList
    ++ theme.accent ++ ";\n  --osf-font: ".toList ++ theme.font.families ++ ";\n\x7d\n".toList

end BlockDocument
