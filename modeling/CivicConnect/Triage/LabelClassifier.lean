import CivicConnect.Triage.Suggestions

/-!
# The rules of the repository
-/

namespace CivicConnect.Triage

/-- `label-classifier.json`. -/
def labelClassifier : Rules where
  prefixSplitOn := "/"
  titlePrefix :=
    [("docs", { type := some "documentation" }),
     ("ci", { type := some "chore", areas := ["cicd"] }),
     ("governance", { type := some "chore", areas := ["governance"] }),
     ("roadmap", { type := some "enhancement", metaLabel := some "meta:roadmap" }),
     ("chore", { type := some "chore" }), ("build", { type := some "chore", areas := ["cicd"] }),
     ("security", { type := some "chore", areas := ["security"] }),
     ("proof", { type := some "chore", areas := ["proofs"] }),
     ("proofs", { type := some "chore", areas := ["proofs"] }),
     ("proof-debt", { type := some "tech-debt", areas := ["proofs"] }),
     ("epic", { type := some "enhancement", metaLabel := some "meta:umbrella" }),
     ("umbrella", { type := some "enhancement", metaLabel := some "meta:umbrella" }),
     ("tracking", { type := some "chore", metaLabel := some "meta:umbrella" }),
     ("campaign", { type := some "enhancement", metaLabel := some "meta:campaign" }),
     ("hygiene", { type := some "tech-debt" }), ("audit", { type := some "research" }),
     ("estate", { type := some "chore", scope := some "scope:estate" }),
     ("automation", { type := some "enhancement", areas := ["automation"] }),
     ("research", { type := some "research" }), ("refactor", { type := some "refactor" }),
     ("test", { type := some "testing" }), ("tests", { type := some "testing" }),
     ("feat", { type := some "enhancement" }), ("fix", { type := some "bug" }),
     ("bug", { type := some "bug" }),
     ("perf", { type := some "enhancement", areas := ["performance"] }),
     ("codegen", { type := some "enhancement", areas := ["architecture"] }),
     ("packaging", { type := some "chore", areas := ["packaging"] }),
     ("policy", { type := some "chore", areas := ["governance"] }),
     ("ops", { type := some "chore", areas := ["automation"] }),
     ("standard", { type := some "chore", areas := ["governance"] }),
     ("migration", { type := some "refactor", areas := ["migration"] }),
     ("drift", { type := some "tech-debt" }), ("corrective", { type := some "bug" }),
     ("adaptive", { type := some "enhancement" }), ("perfective", { type := some "enhancement" }),
     ("preventive", { type := some "tech-debt" }),
     ("machine-readable", { type := some "tech-debt" }), ("parser", { type := some "bug" }),
     ("lang", { type := some "bug" }), ("clippy", { type := some "tech-debt" }),
     ("release", { type := some "chore" }), ("upstream", { type := some "chore" }),
     ("hardening", { type := some "chore", areas := ["security"] }),
     ("deps", { type := some "chore" }),
     ("rustsec", { type := some "chore", areas := ["security"] }),
     ("track", { type := some "chore", metaLabel := some "meta:umbrella" }),
     ("tracker", { type := some "chore", metaLabel := some "meta:umbrella" }),
     ("wiki", { type := some "documentation" }), ("reclassify", { type := some "refactor" }),
     ("backlog", { type := some "chore" }),
     ("core", { type := some "enhancement", areas := ["design"] }),
     ("evidence", { type := some "enhancement", areas := ["design"] }),
     ("manifest", { type := some "enhancement", areas := ["design"] }),
     ("backends", { type := some "enhancement", areas := ["design"] })]
  bracketTag :=
    [("campaign", { metaLabel := some "meta:campaign" }),
     ("umbrella", { metaLabel := some "meta:umbrella" }), ("gov", { areas := ["governance"] }),
     ("proofs/a", { areas := ["proofs"] }), ("proofs/b", { areas := ["proofs"] }),
     ("proofs/c", { areas := ["proofs"] }), ("estate", { scope := some "scope:estate" }),
     ("repo", { scope := some "scope:repo" }), ("feature", { type := some "enhancement" }),
     ("integration", { areas := ["conformance"] }),
     ("reference", { type := some "documentation" }),
     ("register", { type := some "documentation" }), ("p0", { priority := some "priority:p0" }),
     ("p1", { priority := some "priority:p1" }), ("p2", { priority := some "priority:p2" }),
     ("et-l2", { areas := ["conformance"] }), ("et-l4", { areas := ["conformance"] })]
  keywordArea :=
    [("proofs",
       ["agda", "coq", "rocq", "idris", "lean", "isabelle", "hol", "mizar", "why3", "tla",
        "alloy", "dafny", "acl2", "pvs", "metamath", "z3", "smt", "prover", "provers", "theorem",
        "theorems", "axiom", "axioms", "postulate", "postulates", "believe_me", "sorry",
        "proof obligation", "proof obligations", "proof hole", "proof holes", "proof suite",
        "proof-pipeline", "proof debt", "proof-debt", "metatheory", "mechanize", "qed"]),
     ("cicd",
       ["workflow", "github action", "actions.lock", "lockfile", "runner", "startup_failure",
        "dependabot", "check run", "required context", "scorecard", "codeql", "ci/cd"]),
     ("licensing",
       ["spdx", "licence", "license", "reuse", "copyright", "attribution", "agpl", "mpl"]),
     ("security",
       ["gitleaks", "secret", "vulnerabilit", "advisory", "supply chain", "cve"]),
     ("bindings",
       ["abi", "ffi", "wasm", "jni", "c api", "interop", "extern \"c\"", "nif", "snif"]),
     ("packaging",
       ["guix", "nix", "container", "containerfile", "docker", "flatpak", "oci image"]),
     ("scaffolding",
       ["rsr", "scaffold", "template", "repo-init", "instantiat", "placeholder"]),
     ("governance",
       ["ruleset", "policy", "compliance", "governance", "branch protection", "codeowners",
        "code of conduct"]),
     ("migration",
       ["rescript", "to-affinescript", "→ affinescript", "port", "deno", "bun"]),
     ("automation",
       ["bot", "gitbot", "hypatia", "sustainabot", "oikosbot", "fan-out", "fanout", "dispatch",
        "self-heal"]),
     ("performance",
       ["latency", "throughput", "binary size", "memory", "hot path", "regression"])]
  keywordType :=
    [("tech-debt",
       ["debt", "drift", "hygiene", "stale", "cleanup", "follow-up", "clean up", "left over",
        "leftover", "anti-pattern", "inconsistency", "inconsistent", "placeholder",
        "placeholders", "tbd", "todo", "todos", "unfilled"]),
     ("documentation",
       ["document", "docs", "readme", "adoc", "prose", "docs/", "changelog", "explainme",
        "quickstart", "wiki", "docstring", "doc tree"]),
     ("testing",
       ["test", "tests", "fuzz", "bench", "coverage", "crash-consistency", "linearizability",
        "equivalence", "property-correspondence", "property-based", "test suite", "proptest"]),
     ("bug",
       ["broken", "fails", "failing", "crash", "oom", "regression", "incorrect", "does not",
        "panic", "panics", "unreachable", "mangled", "never run", "never ran", "never succeeded",
        "never fires", "cannot fail", "deadlock", "hangs"]),
     ("refactor",
       ["refactor", "restructure", "consolidate", "consolidation", "reconcile", "reconciliation",
        "unify", "dedupe", "re-point", "repoint", "extract", "retire", "retire duplicate",
        "deduplicate", "reclassify", "migrate"]),
     ("research",
       ["investigat", "explore", "spike", "work out", "triage", "assess", "survey",
        "gap analysis", "self-audit", "inventory", "weakness list", "theory", "synthesis",
        "prioritised weakness", "feasibility"]),
     ("decision",
       ["ruling", "decide", "decision", "adjudicat", "which of"]),
     ("enhancement",
       ["add", "implement", "support", "introduce", "enable", "expand", "expansion", "extend",
        "wire", "complete", "build", "create", "port"])]
  metaSignal :=
    [("meta:umbrella",
       ["umbrella", "epic", "master issue", "parent issue", "sub-issues", "child issues"]),
     ("meta:campaign",
       ["campaign"]),
     ("meta:roadmap",
       ["roadmap", "capability-expansion", "future work"]),
     ("meta:recurring",
       ["recurring", "recurrence", "standing", "every run", "each week"])]
  statusSignal :=
    [("status:blocked",
       ["blocked on", "blocked:", "(blocked", "is blocked", "gated on", "waiting on upstream",
        "needs upstream"]),
     ("status:needs-owner",
       ["unassigned", "needs an owner", "no owner"]),
     ("status:needs-ruling",
       ["needs a ruling", "awaiting ruling", "owner decision needed"])]
  scopeSignal :=
    [("scope:estate",
       ["estate-wide", "estate wide", "across the estate", "all repos", "fleet-wide"])]
  tierOf :=
    [("bug", "type"), ("enhancement", "type"), ("documentation", "type"), ("refactor", "type"),
     ("tech-debt", "type"), ("testing", "type"), ("chore", "type"), ("research", "type"),
     ("decision", "type"), ("question", "type"), ("cicd", "area"), ("security", "area"),
     ("proofs", "area"), ("governance", "area"), ("design", "area"), ("architecture", "area"),
     ("performance", "area"), ("bindings", "area"), ("migration", "area"), ("packaging", "area"),
     ("licensing", "area"), ("automation", "area"), ("scaffolding", "area"),
     ("conformance", "area"), ("priority:p0", "priority"), ("priority:p1", "priority"),
     ("priority:p2", "priority"), ("priority:p3", "priority"), ("status:blocked", "status"),
     ("status:ready", "status"), ("status:needs-owner", "status"),
     ("status:needs-ruling", "status"), ("status:do-not-automate", "status"),
     ("meta:umbrella", "meta"), ("meta:campaign", "meta"), ("meta:roadmap", "meta"),
     ("meta:recurring", "meta"), ("scope:estate", "scope"), ("scope:repo", "scope")]
  tierMax :=
    [("type", some 1), ("area", none), ("priority", some 1), ("status", some 1), ("meta", some 1),
     ("scope", some 1)]
  precedence :=
    [("meta:campaign", 0), ("meta:umbrella", 1), ("meta:recurring", 2), ("meta:roadmap", 3),
     ("priority:p0", 0), ("priority:p1", 1), ("priority:p2", 2), ("priority:p3", 3),
     ("status:blocked", 0), ("status:needs-ruling", 1), ("status:needs-owner", 2),
     ("status:do-not-automate", 3), ("status:ready", 4), ("scope:estate", 0), ("scope:repo", 1),
     ("bug", 0), ("decision", 1), ("tech-debt", 2), ("testing", 3), ("documentation", 4),
     ("refactor", 5), ("research", 6), ("enhancement", 7), ("chore", 8), ("question", 9)]
  types :=
    ["bug", "enhancement", "documentation", "refactor", "tech-debt", "testing", "chore",
     "research", "decision", "question"]

theorem wellFormed_labelClassifier : labelClassifier.WellFormed where
  limits := by decide
  unknown_unlimited := by decide
  signals_untyped := by decide
  canonical_nonempty := by decide

/-- `plan_after_plan` for the rules of the repository. -/
theorem plan_after_plan_labelClassifier :
    labelClassifier.WellFormed ∧
      let first := plan ligatureFolding labelClassifier ["bug", "cicd"] "fix: runner hangs" ["help"]
      plan ligatureFolding labelClassifier ["bug", "cicd"] "fix: runner hangs" (["help"] ++ first) =
        [] :=
  ⟨wellFormed_labelClassifier, plan_after_plan ligatureFolding labelClassifier ["bug", "cicd"]
    "fix: runner hangs" ["help"] wellFormed_labelClassifier⟩

end CivicConnect.Triage
