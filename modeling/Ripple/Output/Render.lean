import Ripple.Output.Markdown
import Ripple.Output.Plain
import Ripple.Output.Structured

/-!
Reports written in the chosen form. Only the structured form can fail: it holds paths as they are,
and not all of them are texts.
-/

namespace Ripple

def DependencyMap.render (m : DependencyMap) : OutputFormat → Written
  | .plain => .ofText (Text.unlines m.plainLines)
  | .markdown => .ofText (Text.unlines m.markdownLines)
  | .json => m.toDocument.write .indented

/-- The structured form on one line. -/
def DependencyMap.renderCompact (m : DependencyMap) : Written := m.toDocument.write .compact

def ImpactReport.render (r : ImpactReport) : OutputFormat → Written
  | .plain => .ofText (Text.unlines r.plainLines)
  | .markdown => .ofText (Text.unlines r.markdownLines)
  | .json => r.toDocument.write .indented

/-- The structured form on one line. -/
def ImpactReport.renderCompact (r : ImpactReport) : Written := r.toDocument.write .compact

end Ripple
