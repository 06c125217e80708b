import Mathlib.Logic.Basic
import ScanParse.Command.Basic
import ScanParse.Proofs.Scan.Reading

namespace ScanParse

namespace Arguments

/-- The switches that ask for a listing. -/
def switches (arguments : Arguments) : List Switch :=
  (if arguments.identifierDigits then [.identifierDigits] else []) ++
    (if arguments.positions then [.positions] else []) ++
      (if arguments.skipWhitespace then [.skipWhitespace] else [])

/-- A command line that asks for a listing. -/
def commandLine (arguments : Arguments) : List String :=
  arguments.switches.map (fun switch => "--" ++ switch.long) ++
    (List.replicate arguments.verbosity "-v" ++ ["--", arguments.file])

theorem words_switches (arguments : Arguments) (rest : List String) :
    Reading.empty.words false
        (arguments.switches.map (fun switch => "--" ++ switch.long) ++ rest) =
      Reading.words ⟨arguments.switches, 0, none⟩ false rest := by
  obtain ⟨file, identifierDigits, positions, skipWhitespace, verbosity⟩ := arguments
  cases identifierDigits <;> cases positions <;> cases skipWhitespace <;> rfl

theorem exists_words_verbose (used : List Switch) (verbosity count : Nat) (rest : List String) :
    ∃ later : List Switch, (∀ switch, switch ≠ .verbose → (switch ∈ later ↔ switch ∈ used)) ∧
      Reading.words ⟨used, verbosity, none⟩ false (List.replicate count "-v" ++ rest) =
        Reading.words ⟨later, verbosity + count, none⟩ false rest := by
  induction count generalizing used verbosity with
  | zero => exact ⟨used, fun _ _ => Iff.rfl, rfl⟩
  | succ count ih =>
      obtain ⟨later, hlater, hwords⟩ :=
        ih (used.filter (· != .verbose) ++ [.verbose]) (verbosity + 1)
      refine ⟨later, ?_, ?_⟩
      · intro switch hswitch
        rw [hlater switch hswitch]
        simp [hswitch]
      · rw [Nat.add_right_comm, Nat.add_assoc] at hwords
        exact hwords

theorem read_commandLine {arguments : Arguments} (hfile : arguments.file ≠ "") :
    read arguments.commandLine = .ok (.list arguments) := by
  obtain ⟨later, hlater, hverbose⟩ :=
    exists_words_verbose arguments.switches 0 arguments.verbosity ["--", arguments.file]
  have hwords : Reading.empty.words false arguments.commandLine =
      .ok ⟨later, arguments.verbosity, some arguments.file⟩ := by
    rw [commandLine, words_switches, hverbose, Nat.zero_add]
    rfl
  have hflag : ∀ (flag : Bool) (switch other : Switch),
      switch ∈ (if flag then [other] else []) ↔ flag = true ∧ switch = other := by
    intro flag switch other
    cases flag <;> simp
  rw [read, hwords]
  obtain ⟨file, identifierDigits, positions, skipWhitespace, verbosity⟩ := arguments
  simp [Reading.finish, Reading.checkFile, hfile, hlater, switches, hflag, Except.bind, bind,
    pure, Except.pure]

end Arguments

/-- The content of a file is the encoding of a text, and the text has these tokens. -/
def HasTokens (options : ScanOptions) (content : Except ReadError ByteArray)
    (tokens : List Token) : Prop :=
  ∃ source : String, content = .ok source.toUTF8 ∧ tokenize options source = .ok tokens

theorem textOfBytes_eq_ok_iff {bytes : ByteArray} {source : String} :
    textOfBytes bytes = .ok source ↔ bytes = source.toUTF8 := by
  have hencoded : ∀ (h : bytes.IsValidUTF8), String.fromUTF8? bytes = some (.fromUTF8 bytes h) :=
    fun h => dif_pos h
  constructor
  · intro h
    by_cases hvalid : bytes.IsValidUTF8
    · rw [textOfBytes, hencoded hvalid] at h
      obtain rfl := Except.ok.inj h
      rfl
    · rw [textOfBytes, String.fromUTF8?, dif_neg hvalid] at h
      simp at h
  · rintro rfl
    rw [textOfBytes, hencoded source.isValidUTF8]
    rfl

namespace Directory

theorem betweenSlashes_of_notMem {cs : List Char} (h : '/' ∉ cs) : betweenSlashes cs = [cs] := by
  fun_induction betweenSlashes cs with
  | case1 => rfl
  | case2 => exact absurd List.mem_cons_self h
  | case3 c rest _ hnil ih => simp [ih (List.not_mem_of_not_mem_cons h)] at hnil
  | case4 c rest _ piece pieces hpieces ih =>
      rw [ih (List.not_mem_of_not_mem_cons h)] at hpieces
      cases hpieces
      rfl

/-- A name that leads from a directory to one of its entries. -/
structure IsPlain (name : String) : Prop where
  slashless : '/' ∉ name.toList
  proper : name ∉ ["", ".", ".."]
  short : name.utf8ByteSize ≤ maxName

theorem IsPlain.pathNames_eq {name : String} (h : IsPlain name) : pathNames name = [name] := by
  simp [pathNames, betweenSlashes_of_notMem h.slashless]

theorem IsPlain.not_startsWith {name : String} (h : IsPlain name) :
    name.startsWith "/" = false := by
  rw [String.startsWith_string_eq_false_iff]
  intro hbegins
  exact h.slashless (hbegins.subset List.mem_cons_self)

/-- A plain name is looked up in the directory, wherever that stands and whatever is beside it. -/
theorem read_ofEntries {name : String} (h : IsPlain name)
    (entries root : List (String × DirectoryEntry)) (place : String) :
    (ofEntries entries place root).read name =
      match Entries.entry? (entriesOf entries) [name] with
      | none => .error .notFound
      | some .directory => .error .isDirectory
      | some (.file bytes) => .ok bytes := by
  have hpath : ¬maxPath < name.utf8ByteSize := by
    have hle : maxName ≤ maxPath := by decide
    exact Nat.not_lt.mpr (Nat.le_trans h.short hle)
  have hproper := h.proper
  simp only [List.mem_cons, List.not_mem_nil, or_false, not_or] at hproper
  obtain ⟨hempty, hhere, hup⟩ := hproper
  have hentry : Directory.entry? (ofEntries entries place root) (.inside [name]) =
      Entries.entry? (entriesOf entries) [name] := rfl
  rw [read, if_neg hpath, h.pathNames_eq]
  simp only [h.not_startsWith, Bool.false_eq_true, if_false, follow, hempty, hhere, hup, or_self,
    Nat.not_lt.mpr h.short, child, hentry]
  cases Entries.entry? (entriesOf entries) [name] with
  | none => rfl
  | some entry => cases entry <;> rfl

end Directory

namespace Command

variable {read : Reader} {environment : Environment} {time : String} {directory : Directory}
  {words : List String} {arguments : Arguments}

theorem runWith_of_read (h : read words = .ok (.list arguments)) :
    runWith read environment time directory words =
      Pending.finish
        ⟨arguments, environment.colors, environment.logFilter arguments.verbosity, time⟩
        (directory.read arguments.file) := by
  simp [runWith, startWith, h]

namespace Pending

variable (pending : Pending) {content : Except ReadError ByteArray}

theorem finish_of_hasTokens {tokens : List Token}
    (h : HasTokens ⟨pending.arguments.identifierDigits⟩ content tokens) :
    (pending.finish content).exit = 0 ∧
      (pending.finish content).output =
        (Listing.mk tokens pending.arguments.positions pending.arguments.skipWhitespace
          pending.colors.listing).toText ++ "\n" := by
  obtain ⟨source, rfl, hscan⟩ := h
  rw [tokenize] at hscan
  have htext : textOfBytes source.toUTF8 = .ok source := textOfBytes_eq_ok_iff.mpr rfl
  simp only [finish, Except.bind, htext, scanned, hscan]
  exact ⟨trivial, trivial⟩

theorem finish_of_not_hasTokens
    (h : ∀ tokens, ¬ HasTokens ⟨pending.arguments.identifierDigits⟩ content tokens) :
    (pending.finish content).exit = 1 ∧ (pending.finish content).output = "" := by
  cases content with
  | error cause => exact ⟨rfl, rfl⟩
  | ok bytes =>
      cases htext : textOfBytes bytes with
      | error cause =>
          simp only [finish, Except.bind, htext]
          exact ⟨rfl, rfl⟩
      | ok source =>
          obtain rfl := textOfBytes_eq_ok_iff.mp htext
          cases hscan : (Scan.ofSource ⟨pending.arguments.identifierDigits⟩ source).outcome with
          | ok tokens => exact absurd ⟨source, rfl, hscan⟩ (h tokens)
          | error failure =>
              simp only [finish, Except.bind, htext, scanned, hscan]
              exact ⟨trivial, trivial⟩

/-- The name of the file, the verbosity and the log filter do not show on the output. -/
theorem finish_agrees {other : Pending} {later : Except ReadError ByteArray}
    {file : String} {verbosity : Nat}
    (harguments : other.arguments = { pending.arguments with file, verbosity })
    (hcolors : other.colors.listing = pending.colors.listing)
    (hbytes : ∀ bytes, later = .ok bytes ↔ content = .ok bytes) :
    (other.finish later).exit = (pending.finish content).exit ∧
      (other.finish later).output = (pending.finish content).output := by
  have hsame : ∀ tokens, HasTokens ⟨other.arguments.identifierDigits⟩ later tokens ↔
      HasTokens ⟨pending.arguments.identifierDigits⟩ content tokens := by
    intro tokens
    rw [harguments]
    exact exists_congr fun source => and_congr_left' (hbytes source.toUTF8)
  by_cases hsome : ∃ tokens, HasTokens ⟨pending.arguments.identifierDigits⟩ content tokens
  · obtain ⟨tokens, htokens⟩ := hsome
    obtain ⟨hexit, houtput⟩ := pending.finish_of_hasTokens htokens
    obtain ⟨hexit', houtput'⟩ := other.finish_of_hasTokens ((hsame tokens).mpr htokens)
    rw [harguments, hcolors] at houtput'
    exact ⟨hexit'.trans hexit.symm, houtput'.trans houtput.symm⟩
  · have hnone := not_exists.mp hsome
    obtain ⟨hexit, houtput⟩ := pending.finish_of_not_hasTokens hnone
    obtain ⟨hexit', houtput'⟩ := other.finish_of_not_hasTokens fun tokens htokens =>
      hnone tokens ((hsame tokens).mp htokens)
    exact ⟨hexit'.trans hexit.symm, houtput'.trans houtput.symm⟩

end Pending

/-- A command line that asks for a listing gives all of it, and nothing else on its output, or
nothing at all. Every combination of switches can be asked for; of what is asked for, the
environment and the directory, the output and the exit code show the switches of the listing, the
colours there and the bytes of the file. This is so whatever reads the command line. -/
theorem run_lists_all_or_nothing (environment : Environment) (time : String)
    (directory : Directory) :
    (∀ arguments : Arguments, arguments.file ≠ "" →
      ∃ words, Arguments.read words = .ok (.list arguments)) ∧
      run = runWith Arguments.read ∧
      ∀ (read : Reader) (words : List String) (arguments : Arguments),
        read words = .ok (.list arguments) →
          (∀ tokens,
            HasTokens ⟨arguments.identifierDigits⟩ (directory.read arguments.file) tokens →
              (runWith read environment time directory words).exit = 0 ∧
                (runWith read environment time directory words).output =
                  (Listing.mk tokens arguments.positions arguments.skipWhitespace
                    environment.colors.listing).toText ++ "\n") ∧
            ((∀ tokens,
              ¬ HasTokens ⟨arguments.identifierDigits⟩ (directory.read arguments.file) tokens) →
                (runWith read environment time directory words).exit = 1 ∧
                  (runWith read environment time directory words).output = "") ∧
              ∀ (other : Environment) (later : String) (elsewhere : Directory) (again : List String)
                (file : String) (verbosity : Nat),
                read again = .ok (.list { arguments with file, verbosity }) →
                  other.colors.listing = environment.colors.listing →
                    (∀ bytes, elsewhere.read file = .ok bytes ↔
                      directory.read arguments.file = .ok bytes) →
                      (runWith read other later elsewhere again).exit =
                          (runWith read environment time directory words).exit ∧
                        (runWith read other later elsewhere again).output =
                          (runWith read environment time directory words).output := by
  refine ⟨fun arguments hfile => ⟨_, Arguments.read_commandLine hfile⟩, rfl, ?_⟩
  intro read words arguments hread
  rw [runWith_of_read hread]
  refine ⟨?_, ?_, ?_⟩
  · intro tokens htokens
    exact Pending.finish_of_hasTokens ⟨arguments, _, _, _⟩ htokens
  · intro hnone
    exact Pending.finish_of_not_hasTokens ⟨arguments, _, _, _⟩ hnone
  · intro other later elsewhere again file verbosity hagain hcolors hbytes
    rw [runWith_of_read hagain]
    exact Pending.finish_agrees ⟨arguments, _, _, _⟩ rfl hcolors hbytes

theorem run_lists_all_or_nothing_renamed :
    ∃ (directory : Directory) (tokens : List Token), tokens ≠ [] ∧
      (run (fun _ => none) "" directory ["-p", "a"]).output =
        (Listing.mk tokens true false false).toText ++ "\n" ∧
      (run (fun _ => none) "" directory ["b", "-vv", "--positions"]).output =
        (run (fun _ => none) "" directory ["-p", "a"]).output ∧
      (run (fun _ => none) "" directory ["-p", "c"]).exit = 1 ∧
        (run (fun _ => none) "" directory ["-p", "c"]).output = "" := by
  have hplain : ∀ name ∈ ["a", "b", "c"], Directory.IsPlain name := by
    intro name hname
    simp only [List.mem_cons, List.not_mem_nil, or_false] at hname
    obtain rfl | rfl | rfl := hname
    all_goals exact ⟨by decide, by decide, by decide⟩
  let entries : List (String × DirectoryEntry) :=
    [("a", .file "x 1".toUTF8), ("b", .file "x 1".toUTF8), ("c", .file ⟨#[97, 255]⟩)]
  let directory : Directory := .ofEntries entries "/" []
  have hfile : directory.read "a" = .ok "x 1".toUTF8 :=
    Directory.read_ofEntries (hplain "a" (by decide)) entries [] "/"
  have hcopy : directory.read "b" = .ok "x 1".toUTF8 :=
    Directory.read_ofEntries (hplain "b" (by decide)) entries [] "/"
  have hbroken : directory.read "c" = .ok ⟨#[97, 255]⟩ :=
    Directory.read_ofEntries (hplain "c" (by decide)) entries [] "/"
  have hall := (run_lists_all_or_nothing (fun _ => none) "" directory).2.2 Arguments.read
  have hread : Arguments.read ["-p", "a"] = .ok (.list ⟨"a", false, true, false, 0⟩) := rfl
  have htext : HasTokens .standard (directory.read "a")
      (Scan.place .start [⟨.identifier "x", 1⟩, ⟨.space, 1⟩, ⟨.int 1, 1⟩]) := by
    refine ⟨"x 1", hfile, (tokenize_eq_ok_iff _ _ _).mpr ⟨_, ?_, rfl⟩⟩
    change Scan.Reads _ ("x".toList ++ (" ".toList ++ ("1".toList ++ []))) _ _
    exact .step rfl (.step rfl (.step rfl (.done [])))
  have hnone : ∀ tokens, ¬ HasTokens .standard (directory.read "c") tokens := by
    rintro tokens ⟨source, hsource, -⟩
    rw [hbroken] at hsource
    have htext := textOfBytes_eq_ok_iff.mpr (Except.ok.inj hsource)
    rw [show textOfBytes ⟨#[97, 255]⟩ = .error .notText from rfl] at htext
    cases htext
  refine ⟨directory, _, List.cons_ne_nil _ _, ((hall _ _ hread).1 _ htext).2, ?_,
    (hall ["-p", "c"] _ rfl).2.1 hnone⟩
  refine ((hall _ _ hread).2.2 (fun _ => none) "" directory _ "b" 2 rfl rfl ?_).2
  rw [hfile, hcopy]
  exact fun _ => Iff.rfl

end Command

end ScanParse
