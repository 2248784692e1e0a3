import Autofix.Cli.Arguments
import Autofix.Config.File
import Autofix.Proofs.Config.Normal
import Autofix.Proofs.Disk.Place
import Autofix.Proofs.Number.Order

/-! Lists of categories. A list may be given on the command line or written in the configuration file. The file's list
is brought to its normal form when it is loaded and the command line's is taken as it is, so the two mean the same
exactly if there is nothing to normalize but repeated names. -/
namespace Autofix

namespace Config

/-- A configuration file that can be read is loaded in its normal form. -/
theorem load_of_parse {root : String} {d : Disk} {t : Text} {c : Config} (hread : d.readText (filePath root) = .ok t)
    (hparse : parse? t = some c) : load root d = .ok c.normalize := by
  have hexists : d.pathExists (filePath root) = true := by
    unfold Disk.readText Disk.readBytes Disk.entry at hread
    unfold Disk.pathExists
    cases hstatus : d.status (filePath root) with
    | error e => simp [hstatus, Except.map] at hread
    | ok found => rfl
  rw [load, if_pos hexists, hread]
  simp only [hparse]

end Config

namespace Options

/-- The risk and the confidence of the fix are within the limits. -/
def tolerates (o : Options) (f : Fix) : Bool := f.risk.rank ≤ o.maxRisk.rank && !f.confidence.lt o.minConfidence

/-- A list of categories lets a fixer contribute. -/
def Admits (categories : List String) (fixer : String) : Prop := categories = [] ∨ fixer ∈ categories

lemma wants_iff {o : Options} {f : Fix} : o.wants f = true ↔ o.tolerates f = true ∧ Admits o.categories f.provider := by
  simp [wants, tolerates, Admits, and_assoc]

/-- Whatever the limits, any fixer can make a fix that is within them. -/
lemma exists_tolerated (o : Options) (fixer : String) : ∃ f : Fix, f.provider = fixer ∧ o.tolerates f = true := by
  have hlt : o.minConfidence.lt o.minConfidence = false := by
    by_contra h
    rw [Bool.not_eq_false] at h
    obtain ⟨hnan, _⟩ := Binary.ne_nan_of_lt h
    exact lt_irrefl _ ((Binary.lt_iff_value_lt hnan hnan).1 h)
  exact ⟨⟨"", "", "", [], o.minConfidence, .low, fixer⟩, rfl, by simp [tolerates, hlt, Risk.rank]⟩

/-- Options with the same limits want the same fixes exactly if their lists let the same fixers contribute. -/
theorem wants_eq_iff {o o' : Options} (h : ∀ f, o.tolerates f = o'.tolerates f) :
    (∀ f, o.wants f = o'.wants f) ↔ ∀ fixer, Admits o.categories fixer ↔ Admits o'.categories fixer := by
  constructor
  · intro hwants fixer
    obtain ⟨f, rfl, hf⟩ := exists_tolerated o fixer
    have hboth := Bool.eq_iff_iff.1 (hwants f)
    rw [wants_iff, wants_iff, ← h f] at hboth
    simpa [hf] using hboth
  · intro hadmits f
    rw [Bool.eq_iff_iff, wants_iff, wants_iff, h f, hadmits f.provider]

/-- Bringing a list to its normal form makes no difference exactly if all its names are trimmed and none is empty. -/
theorem admits_normalizeNames {names : List String} (hnames : names ≠ []) :
    (∀ fixer, Admits names fixer ↔ Admits (Config.normalizeNames names) fixer) ↔
      ∀ n ∈ names, n ≠ "" ∧ trimmed n = n := by
  simp only [Admits, hnames, false_or, Config.normalizeNames_eq_nil, Config.mem_normalizeNames]
  constructor
  · intro h n hn
    rcases (h n).1 hn with hblank | ⟨hne, m, _, rfl⟩
    · have ha := hblank "a" ((h "a").2 (.inl hblank))
      exact absurd ha (by decide +kernel)
    · exact ⟨hne, trimmed_trimmed m⟩
  · intro h fixer
    constructor
    · intro hmem
      exact .inr ⟨(h fixer hmem).1, fixer, hmem, (h fixer hmem).2⟩
    · rintro (hblank | ⟨_, m, hm, rfl⟩)
      · obtain ⟨n, hn⟩ := List.exists_mem_of_ne_nil _ hnames
        exact absurd ((h n hn).2.symm.trans (hblank n hn)) (h n hn).1
      · rw [(h m hm).2]
        exact hm

end Options

namespace Cli
variable {names : List String} {l : Level}

/-- What is given for the command that applies fixes if nothing but issues and categories are given. -/
def FixArguments.plain (issues : String) (categories : List String) : FixArguments :=
  ⟨issues, false, false, categories, none, none, false, false, .table⟩

lemma commaSeparated_of_not_mem {n : String} (h : ',' ∉ n.toList) : commaSeparated n = [n] := by
  have hcomma : ∀ c ∈ n.toList, (c == ',') = false := fun c hc => beq_false_of_ne fun heq => h (heq ▸ hc)
  rw [commaSeparated, Text.splitAt_of_forall_not hcomma, List.map_singleton, String.ofList_toList]

/-- One more `--category` adds its names to those given before. -/
lemma readLong_category (hl : l.pending = none) (n : String) :
    readLong (commandShape "fix") l ("category=".toList ++ n.toList) =
      .ok { draft := { l.draft with categories := l.draft.categories ++ commaSeparated n }
            seen := "category" :: l.seen } := by
  have hsplit : splitLong ("category=".toList ++ n.toList) = ("category", some n) := by
    simp [splitLong, List.takeWhile]
  have hfind : (commandShape "fix").options.find? (fun p => p.name == "category") =
      some { name := "category", repeats := true
             set := fun v d => .ok { d with categories := d.categories ++ commaSeparated v } } := rfl
  simp only [readLong, hsplit, hfind]
  simp [Level.give, Level.settle, hl, Level.enter]
  rfl

lemma readLong_issues {issues : String} (h : issues ≠ "") :
    readLong (commandShape "fix") {} ("issues=".toList ++ issues.toList) =
      .ok { draft := { issues := some issues }, seen := ["issues"] } := by
  have hsplit : splitLong ("issues=".toList ++ issues.toList) = ("issues", some issues) := by
    simp [splitLong, List.takeWhile]
  have hfind : (commandShape "fix").options.find? (fun p => p.name == "issues") =
      some (.path "issues" fun v d => { d with issues := some v }) := rfl
  simp only [readLong, hsplit, hfind]
  simp [Level.give, Level.settle, Level.enter, Parameter.path, h]
  rfl

/-- An argument that starts with two dashes and goes on is an option. -/
lemma readLevel_long {long : Text} {argument : String} (h : argument.toList = '-' :: '-' :: long) (hlong : long ≠ [])
    (rest : List String) (l : Level) : readLevel (commandShape "fix") false (argument :: rest) l =
      (readLong (commandShape "fix") l long).bind (readLevel (commandShape "fix") false rest) := by
  have hcommands : (commandShape "fix").commands = [] := rfl
  obtain ⟨c, long, rfl⟩ := List.exists_cons_of_ne_nil hlong
  rw [readLevel, hcommands, List.contains_nil, Bool.and_false, if_neg Bool.false_ne_true, h]
  rfl

/-- All names that are given are there in the end, in order. -/
theorem readLevel_categories (names : List String) (hl : l.pending = none) :
    ∃ seen, readLevel (commandShape "fix") false (names.map ("--category=" ++ ·)) l =
      .ok ({ draft := { l.draft with categories := l.draft.categories ++ names.flatMap commaSeparated }, seen },
        none) := by
  induction names generalizing l with
  | nil =>
    obtain ⟨draft, seen, pending⟩ := l
    obtain rfl : pending = none := hl
    exact ⟨seen, by simp [readLevel]⟩
  | cons n names ih =>
    have hlong : ("--category=" ++ n).toList = '-' :: '-' :: ("category=".toList ++ n.toList) := by
      rw [String.toList_append]
      rfl
    obtain ⟨seen, hrest⟩ := ih (l := { draft := { l.draft with categories := l.draft.categories ++ commaSeparated n }
                                       seen := "category" :: l.seen }) rfl
    refine ⟨seen, ?_⟩
    rw [List.map_cons, readLevel_long hlong (by simp), readLong_category hl]
    simpa [Except.bind] using hrest

/-- The command line with issues and categories says what it should, each category being split at its commas. -/
theorem parse_categories (issues : String) (h : issues ≠ "") (names : List String) :
    parse ("fix" :: ("--issues=" ++ issues) :: names.map ("--category=" ++ ·)) =
      .ok { command := .fix (.plain issues (names.flatMap commaSeparated)) } := by
  have hlong : ("--issues=" ++ issues).toList = '-' :: '-' :: ("issues=".toList ++ issues.toList) := by
    rw [String.toList_append]
    rfl
  obtain ⟨seen, hrest⟩ := readLevel_categories (l := { draft := { issues := some issues }, seen := ["issues"] })
    names rfl
  have hcommand : readCommand "fix" (("--issues=" ++ issues) :: names.map ("--category=" ++ ·)) =
      .ok ({ issues := some issues, categories := names.flatMap commaSeparated },
        .fix (.plain issues (names.flatMap commaSeparated))) := by
    rw [readCommand, readLevel_long hlong (by simp), readLong_issues h]
    simp only [Except.bind, hrest]
    rfl
  have hprogram : ∀ rest, readLevel programShape false ("fix" :: rest) {} = .ok ({}, some ("fix", rest)) :=
    fun rest => rfl
  simp only [parse, hprogram, bind, Except.bind]
  split
  · next hnone => cases hnone
  · next hhelp => simp at hhelp
  · next name arguments _ hsome =>
    obtain ⟨rfl, rfl⟩ := Prod.mk.inj (Option.some.inj hsome)
    rw [hcommand]
    rfl

/-- What a list of categories means. A non-empty list that is given on the command line and the same list written in
the configuration file, all other settings being equal, want the same fixes exactly if each name in it is trimmed and
none is empty; repeated names make no difference. No name given at all leaves the list of the configuration as it is.
Names without commas are given by one `--category` each. -/
theorem categories_given_or_written (names : List String) (a : FixArguments) (settings : FixSettings) (root : String)
    (d : Disk) (t : Text) (c : Config) (hread : d.readText (Config.filePath root) = .ok t)
    (hparse : Config.parse? t = some c) (hwritten : c.fix = { settings with categories := names }) :
    ∃ loaded, Config.load root d = .ok loaded ∧
      (names ≠ [] →
        ((∀ f, ({ a with categories := names }.options settings).wants f =
          ({ a with categories := [] }.options loaded.fix).wants f) ↔ ∀ n ∈ names, n ≠ "" ∧ trimmed n = n)) ∧
      (names = [] → { a with categories := names }.options settings =
        { { a with categories := [] }.options loaded.fix with categories := settings.categories }) ∧
      ∀ issues, issues ≠ "" → (∀ n ∈ names, ',' ∉ n.toList) →
        parse ("fix" :: ("--issues=" ++ issues) :: names.map ("--category=" ++ ·)) =
          .ok { command := .fix (.plain issues names) } := by
  have hfix : c.normalize.fix = { settings with
      categories := Config.normalizeNames names, backupDir := Config.normalizeBackupDir settings.backupDir } := by
    rw [Config.normalize, hwritten]
  refine ⟨c.normalize, Config.load_of_parse hread hparse, fun hnames => ?_, fun hnames => ?_,
    fun issues hissues hcommas => ?_⟩
  · rw [hfix, ← Options.admits_normalizeNames hnames]
    refine (Options.wants_eq_iff fun f => ?_).trans (forall_congr' fun fixer => ?_)
    · rfl
    · simp [FixArguments.options, hnames]
  · subst hnames
    rw [hfix]
    rfl
  · have hflat : names.flatMap commaSeparated = names := by
      rw [List.flatMap_congr fun n hn => commaSeparated_of_not_mem (hcommas n hn), List.flatMap_singleton']
    rw [parse_categories issues hissues, hflat]

namespace Specimen

def configured (text : String) : Disk :=
  { nodes := [(["ws".toList], .directory), (["ws".toList, ".mender".toList], .directory),
      (["ws".toList, ".mender".toList, "config.toml".toList],
        .file ⟨encodeText text.toList, Disk.permissionsOf 0o644, .ofParts 0 0⟩)] }

def repeated : String := "[fix]\ncategories = [\"imports\", \"formatting\", \"imports\"]\n"

def padded : String := "[fix]\ncategories = [\" formatting\"]\n"

def fixBy (fixer : String) : Fix := ⟨"f1", "i1", "", [.replace "a.ts" "a " "a"], .hundredths 98, .low, fixer⟩

end Specimen

theorem categories_given_or_written_repeated :
    Config.parse? Specimen.repeated.toList =
      some { fix := { categories := ["imports", "formatting", "imports"] } } ∧
    ∃ loaded, Config.load "/ws" (Specimen.configured Specimen.repeated) = .ok loaded ∧
      parse ["fix", "--issues=i.json", "--category=imports", "--category=formatting", "--category=imports"] =
        .ok { command := .fix (.plain "i.json" ["imports", "formatting", "imports"]) } ∧
      ∀ f, ((FixArguments.plain "i.json" ["imports", "formatting", "imports"]).options {}).wants f =
        ((FixArguments.plain "i.json" []).options loaded.fix).wants f := by
  have hparse : Config.parse? Specimen.repeated.toList =
      some { fix := { categories := ["imports", "formatting", "imports"] } } := by decide +kernel
  have hread : (Specimen.configured Specimen.repeated).readText (Config.filePath "/ws") =
    .ok Specimen.repeated.toList := by decide +kernel
  obtain ⟨loaded, hload, hsame, _, hgiven⟩ := categories_given_or_written ["imports", "formatting", "imports"]
    (.plain "i.json" []) {} "/ws" _ _ _ hread hparse rfl
  exact ⟨hparse, loaded, hload, hgiven "i.json" (by decide) (by decide), (hsame (by simp)).2 (by decide +kernel)⟩

/-- A name with a blank before it names a fixer in the configuration file and no fixer on the command line. -/
theorem padded_name_is_not_trimmed :
    parse ["fix", "--issues=i.json", "--category= formatting"] =
      .ok { command := .fix (.plain "i.json" [" formatting"]) } ∧
    ((FixArguments.plain "i.json" [" formatting"]).options {}).wants (Specimen.fixBy "formatting") = false ∧
    Config.parse? Specimen.padded.toList = some { fix := { categories := [" formatting"] } } ∧
    ∃ loaded, Config.load "/ws" (Specimen.configured Specimen.padded) = .ok loaded ∧
      ((FixArguments.plain "i.json" []).options loaded.fix).wants (Specimen.fixBy "formatting") = true := by
  have hgiven := parse_categories "i.json" (by decide) [" formatting"]
  have hparse : Config.parse? Specimen.padded.toList = some { fix := { categories := [" formatting"] } } := by
    decide +kernel
  have hread : (Specimen.configured Specimen.padded).readText (Config.filePath "/ws") = .ok Specimen.padded.toList := by
    decide +kernel
  exact ⟨hgiven, by decide +kernel, hparse, _, Config.load_of_parse hread hparse, by decide +kernel⟩

end Cli
end Autofix
