import TreeAudit.Program
import TreeAudit.Proofs.FileSystem.Writing
import TreeAudit.Proofs.Output.ReportFile
import TreeAudit.Proofs.Run.Stream
import TreeAudit.Proofs.Text.ByteLines

/-!
What the program leaves changed. Whatever comes of a command line, every place in the file system
has what it had, but for the one that the path of the report file leads to (`run_footprint`). That
one is left alone as well as long as the program does not come to its run, since a report file is
made last (`plan_ok`). If it does, the file holds the report and nothing else, also where it is
the store that was to be read: nothing keeps the two apart (`run_overwrites_store`).
-/

set_option autoImplicit false
set_option relaxedAutoImplicit false

namespace TreeAudit

open Report

namespace Output.Channel

theorem neverCrashes_sink : sink.NeverCrashes := by
  intro entry channel
  cases channel <;> exact nofun

/-- A report file that is given entries through its channel takes them as a file does. -/
theorem served_file (entries : List Entry) (place : FileSystem.Place) (report : ReportFile) :
    sink.served entries (.file place report) =
      .file place (ReportFile.sink.served entries report) := by
  have hgiven : sink.given entries (.file place report) =
      .file place (ReportFile.sink.given entries report) := by
    induction entries generalizing report with
    | nil => rfl
    | cons entry rest ih => exact ih (ReportFile.sink.write entry report).1
  rw [Sink.served, hgiven]
  rfl

/-- What is shown on a console changes no file. -/
theorem deliver_served_console (entries : List Entry) (console : Console) (files : FileSystem) :
    deliver files (sink.served entries (.console console)) = files := by
  have hgiven : ∃ shown, sink.given entries (.console console) = .console shown := by
    induction entries generalizing console with
    | nil => exact ⟨console, rfl⟩
    | cons entry rest ih => exact ih (Console.sink.write entry console).1
  obtain ⟨shown, hgiven⟩ := hgiven
  rw [Sink.served, hgiven]
  rfl

end Output.Channel

namespace Program

open Output

variable {environment : Environment} {arguments : CommandLine.Arguments} {made : Plan}

/-- What the channels of a report change is what its file does. -/
theorem foldl_deliver_of_channels {target : Target} {files next : FileSystem}
    {channels : List Channel} (h : target.channels files = .ok (next, channels))
    (entries : List Entry) :
    let delivered := (channels.map (Channel.sink.served entries)).foldl Channel.deliver next
    (target.path = none → delivered = files) ∧
      ∀ path, target.path = some path → ∃ place, files.create path = .ok (next, place) ∧
        delivered = next.write place (ReportFile.sink.served entries
          (.create target.format (next.hasRoom place))).held.toUTF8.toList := by
  have hconsole (files : FileSystem) :
      ((if target.silent then [] else [Channel.console .blank]).map
        (Channel.sink.served entries)).foldl Channel.deliver files = files := by
    split_ifs
    · rfl
    · exact Channel.deliver_served_console entries .blank files
  intro delivered
  unfold Target.channels at h
  cases hpath : target.path with
  | none =>
    rw [hpath] at h
    obtain ⟨rfl, rfl⟩ := Prod.mk.inj (Except.ok.inj h)
    exact ⟨fun _ ↦ hconsole files, nofun⟩
  | some path =>
    rw [hpath] at h
    obtain ⟨⟨next, place⟩, hcreate, h⟩ := exists_of_bind_eq_ok h
    obtain ⟨rfl, rfl⟩ := Prod.mk.inj (Except.ok.inj h)
    refine ⟨nofun, fun _ hsome ↦ ⟨place, (Option.some.inj hsome) ▸ hcreate, ?_⟩⟩
    simp only [delivered, List.map_append, List.foldl_append, hconsole, List.map_cons, List.map_nil,
      Channel.served_file, List.foldl_cons, List.foldl_nil]
    rfl

theorem channels_of_openTarget {target : Target} {files next : FileSystem}
    {channels : List Channel} (h : openTarget files target = .ok (next, channels)) :
    target.channels files = .ok (next, channels) := by
  unfold openTarget at h
  split at h
  · cases h
  split at h
  · next hchannels => rw [hchannels, Except.ok.inj h]
  · cases h

/-- The report file is made when all else is ready. -/
theorem plan_ok (h : plan environment arguments = .ok made) :
    made.request.selection.fault? = none ∧
      arguments.target.channels environment.files = .ok (made.files, made.channels) := by
  unfold plan at h
  dsimp only at h
  split at h
  · cases h
  split at h
  · cases h
  rename_i hselection
  split at h
  · cases h
  obtain ⟨opened, htarget, h⟩ := exists_of_bind_eq_ok h
  obtain rfl := Except.ok.inj h
  exact ⟨hselection, channels_of_openTarget htarget⟩

/-- What a plan leaves behind is what its channels deliver of the entries of the run. -/
theorem Plan.files_run (environment : Environment)
    (hvalid : made.request.selection.fault? = none) :
    ∃ stream,
      (Run.entries environment.clock environment.stopped made.request (made.store made.files)).1 =
        stream ++ [.closing] ∧
      (made.run environment).files =
        (made.channels.map (Channel.sink.served stream)).foldl Channel.deliver made.files := by
  obtain ⟨documents, ended, -, hentries⟩ :=
    Run.entries_eq environment.clock made.request environment.stopped (made.store made.files)
  have hopen := Run.closing_notMem_stream environment.clock made.request
    (made.store made.files).estimate (made.store made.files) documents ended
  refine ⟨_, congrArg Prod.fst hentries, ?_⟩
  rw [Plan.run, Run.run, hvalid]
  dsimp only
  rw [hentries, Writer.write_closing Channel.neverCrashes_sink hopen]

/-- What a plan changes is the file of the report, if there is to be one. -/
theorem Plan.footprint (h : plan environment arguments = .ok made) :
    let left := (made.run environment).files
    (arguments.output = none → left = environment.files) ∧
      ∀ path, arguments.output = some path → ∃ place, environment.files.LeadsTo path place ∧
        (∀ other ≠ place, left.node? other = environment.files.node? other) ∧
        (((∃ hasRoom, environment.files.node? place = some (.device hasRoom)) ∧
            left = environment.files) ∨
          ∃ stream text,
            (Run.entries environment.clock environment.stopped made.request
              (made.store made.files)).1 = stream ++ [.closing] ∧
            ReportFile.Saved arguments.format stream text ∧
            left.node? place = some (.file (.bytes text.toUTF8.toList))) := by
  intro left
  obtain ⟨hvalid, hchannels⟩ := plan_ok h
  obtain ⟨stream, hentries, hleft⟩ := Plan.files_run environment hvalid
  obtain ⟨hnone, hsome⟩ := foldl_deliver_of_channels hchannels stream
  refine ⟨fun hpath ↦ hleft.trans (hnone hpath), fun path hpath ↦ ?_⟩
  obtain ⟨place, hcreate, hdelivered⟩ := hsome path hpath
  obtain ⟨hother, hplace⟩ := FileSystem.write_of_create hcreate _
  rw [← hdelivered, ← hleft] at hother hplace
  refine ⟨place, (FileSystem.create_eq hcreate).1, hother, hplace.imp_right fun hfile ↦ ?_⟩
  refine ⟨stream, _, hentries, ReportFile.saved_iff.mpr ?_, hfile⟩
  exact ReportFile.held_served stream arguments.format _

theorem run_of_plan {words : List String} (hread : CommandLine.read words = .ok arguments)
    (hplan : plan environment arguments = .ok made) :
    run environment words = made.run environment := by
  simp only [run, hread, hplan]

/-- Either there is a plan and it is carried out, or nothing is changed. -/
theorem run_cases (environment : Environment) (words : List String) :
    ((¬ ∃ arguments made, CommandLine.read words = .ok arguments ∧
        plan environment arguments = .ok made) ∧
      (run environment words).files = environment.files) ∨
    ∃ arguments made, CommandLine.read words = .ok arguments ∧
      plan environment arguments = .ok made ∧ run environment words = made.run environment := by
  cases hread : CommandLine.read words with
  | error fault => exact .inl ⟨fun ⟨_, _, hsame, _⟩ ↦ (nomatch hsame), by simp only [run, hread]⟩
  | ok arguments =>
    cases hplan : plan environment arguments with
    | ok made => exact .inr ⟨arguments, made, rfl, hplan, run_of_plan hread hplan⟩
    | error failure =>
      refine .inl ⟨fun ⟨_, _, hsame, hmade⟩ ↦ ?_, by simp only [run, hread, hplan]⟩
      obtain rfl := Except.ok.inj hsame
      cases hplan.symm.trans hmade

/-- The program changes nothing but the file that the path of the report leads to, and not that
either unless it comes to its run. Then the file holds the report and nothing of what it had,
whichever file it is, unless it is a device, which keeps nothing. So a store keeps what it has if
the report is not to go to the same place. -/
theorem run_footprint (environment : Environment) (words : List String) :
    let left := (run environment words).files
    (∀ place, (∀ arguments path, CommandLine.read words = .ok arguments →
        arguments.output = some path → ¬ environment.files.LeadsTo path place) →
      left.node? place = environment.files.node? place) ∧
    ((¬ ∃ arguments made, CommandLine.read words = .ok arguments ∧
        plan environment arguments = .ok made) → left = environment.files) ∧
    ∀ arguments made path, CommandLine.read words = .ok arguments →
      plan environment arguments = .ok made → arguments.output = some path →
        ∃ place, environment.files.LeadsTo path place ∧
          (((∃ hasRoom, environment.files.node? place = some (.device hasRoom)) ∧
              left = environment.files) ∨
            ∃ stream text,
              (Run.entries environment.clock environment.stopped made.request
                (made.store made.files)).1 = stream ++ [.closing] ∧
              ReportFile.Saved arguments.format stream text ∧
              left.node? place = some (.file (.bytes text.toUTF8.toList))) := by
  intro left
  obtain ⟨hno, hleft⟩ | ⟨arguments, made, hread, hplan, hrun⟩ := run_cases environment words
  · have hsame : left = environment.files := hleft
    exact ⟨fun _ _ ↦ by rw [hsame], fun _ ↦ hsame,
      fun arguments made _ hread hplan ↦ absurd ⟨arguments, made, hread, hplan⟩ hno⟩
  · have hleft : left = (made.run environment).files := congrArg Result.files hrun
    obtain ⟨hnone, hsome⟩ := Plan.footprint hplan
    rw [← hleft] at hnone hsome
    refine ⟨fun place hnowhere ↦ ?_, fun hno ↦ absurd ⟨arguments, made, hread, hplan⟩ hno, ?_⟩
    · cases hpath : arguments.output with
      | none => rw [hnone hpath]
      | some path =>
        obtain ⟨reached, hleads, hother, -⟩ := hsome path hpath
        refine hother place ?_
        rintro rfl
        exact hnowhere arguments path hread hpath hleads
    · intro _ _ path hread' hplan' hpath
      obtain rfl := Except.ok.inj (hread.symm.trans hread')
      obtain rfl := Except.ok.inj (hplan.symm.trans hplan')
      obtain ⟨place, hleads, -, hplace⟩ := hsome path hpath
      exact ⟨place, hleads, hplace⟩

/-- The report begins with the line that names the run. -/
theorem exists_header {clock : Run.Clock} {stopped : ℕ → Bool} {request : Run.Request}
    {store : Store} {stream : List Entry}
    (h : (Run.entries clock stopped request store).1 = stream ++ [.closing]) :
    ∃ rest, stream = .status (Run.firstLine request.config store.name) :: rest := by
  obtain ⟨documents, ended, -, hentries⟩ := Run.entries_eq clock request stopped store
  rw [hentries, List.append_cancel_right_eq] at h
  exact ⟨_, h.symm⟩

/-- A report to be read begins with the word for a check. -/
theorem head?_of_saved {config : Config} {store text : String} {rest : List Entry}
    (h : ReportFile.Saved .text (.status (Run.firstLine config store) :: rest) text) :
    text.toList.head? = some 'c' := by
  have hopening : Format.text.opening.toList = [] := rfl
  have hline : (Format.text.line (.status (Run.firstLine config store))).toList =
      ("check run_id=" ++ config.runId ++ " store=" ++ store ++ " root=" ++ config.root.text ++
        "\n").toList := rfl
  rw [ReportFile.saved_iff.mp h, hopening, List.nil_append, List.flatMap_cons, hline]
  simp only [String.toList_append]
  rfl

/-- A store in a working directory at the top, and a configuration that says nothing. -/
def storeAtTop (stored : List UInt8) : Environment where
  files := ⟨[(["nodes.jsonl"], .file (.bytes stored)), (["check.yml"], .file (.bytes []))], []⟩
  processors := 1
  moment := ⟨0, 0⟩
  clock := ⟨.zero, fun _ ↦ .zero, .zero, .zero, .prompt⟩
  stopped := fun _ ↦ false

/-- The words that ask for a report of that store in a file alone. -/
def silentWords (report : String) : List String :=
  ["--store", "nodes.jsonl", "--config-path", "check.yml", "--output", report, "--silent"]

def silentArguments (report : String) : CommandLine.Arguments where
  store := "nodes.jsonl"
  configPath := some "check.yml"
  output := some report
  silent := true

theorem unusable?_eq_none (path : String) (hnul : '\x00' ∉ path.toList) (hempty : path ≠ "")
    (hlong : path.utf8ByteSize ≤ FileSystem.longestPath) : FileSystem.unusable? path = none := by
  rw [FileSystem.unusable?, String.contains_char_eq, decide_eq_false hnul,
    if_neg Bool.false_ne_true, if_neg hempty, if_neg (Nat.not_lt.mpr hlong)]

theorem exists_plan_storeAtTop (stored : List UInt8) :
    (∃ made, plan (storeAtTop stored) (silentArguments "nodes.jsonl") = .ok made) ∧
      ∃ made, plan (storeAtTop stored) (silentArguments "report.txt") = .ok made := by
  have hnodes := unusable?_eq_none "nodes.jsonl" (by decide) (by decide) (by decide)
  have hcheck := unusable?_eq_none "check.yml" (by decide) (by decide) (by decide)
  have hreport := unusable?_eq_none "report.txt" (by decide) (by decide) (by decide)
  constructor
  all_goals
    refine ⟨?_, ?_⟩
    rotate_left
    · simp only [plan, storeAtTop, silentArguments, Config.load, Store.openPath, Store.openDump,
        openTarget, Target.channels, CommandLine.Arguments.target, Option.bind, pathFault?,
        FileSystem.isDirectory, FileSystem.read, FileSystem.find, FileSystem.create, hnodes, hcheck,
        hreport]
      rfl

/-- The store keeps its document while the report goes to another file beside it. -/
theorem run_footprint_storeAtTop :
    let stored := "\x7b\"_id\":\"0:/\"\x7d\n".toUTF8.toList
    let left := (run (storeAtTop stored) (silentWords "report.txt")).files
    left.node? ["nodes.jsonl"] = some (.file (.bytes stored)) ∧
      ∃ stream text, ReportFile.Saved .text stream text ∧
        left.node? ["report.txt"] = some (.file (.bytes text.toUTF8.toList)) := by
  intro stored left
  have hread : CommandLine.read (silentWords "report.txt") =
      .ok (silentArguments "report.txt") := by
    decide +kernel
  obtain ⟨made, hplan⟩ := (exists_plan_storeAtTop stored).2
  obtain ⟨hframe, -, hreport⟩ := run_footprint (storeAtTop stored) (silentWords "report.txt")
  have hplace : (storeAtTop stored).files.LeadsTo "report.txt" ["report.txt"] := rfl
  constructor
  · refine hframe ["nodes.jsonl"] fun arguments path hsame hpath hleads ↦ ?_
    obtain rfl := Except.ok.inj (hread.symm.trans hsame)
    obtain rfl := Option.some.inj hpath
    have hclash := Except.ok.inj (hleads.symm.trans hplace)
    exact absurd hclash (by decide)
  · obtain ⟨place, hleads, hwritten⟩ := hreport _ made "report.txt" hread hplan rfl
    obtain rfl := Except.ok.inj (hleads.symm.trans hplace)
    obtain ⟨⟨_, hdevice⟩, -⟩ | ⟨stream, text, -, hsaved, hnode⟩ := hwritten
    · cases hdevice
    · exact ⟨stream, text, hsaved, hnode⟩

/-- A store that is to be read and written is lost: it is emptied before it is read. -/
theorem run_overwrites_store :
    let stored := "\x7b\"_id\":\"0:/\"\x7d\n".toUTF8.toList
    (storeAtTop stored).files.node? ["nodes.jsonl"] = some (.file (.bytes stored)) ∧
      ∃ bytes ≠ stored,
        (run (storeAtTop stored) (silentWords "nodes.jsonl")).files.node? ["nodes.jsonl"] =
          some (.file (.bytes bytes)) := by
  intro stored
  have hread : CommandLine.read (silentWords "nodes.jsonl") =
      .ok (silentArguments "nodes.jsonl") := by
    decide +kernel
  obtain ⟨made, hplan⟩ := (exists_plan_storeAtTop stored).1
  obtain ⟨place, hleads, -, hplace⟩ := (Plan.footprint hplan).2 "nodes.jsonl" rfl
  have hstore : (storeAtTop stored).files.LeadsTo "nodes.jsonl" ["nodes.jsonl"] := rfl
  obtain rfl := Except.ok.inj (hleads.symm.trans hstore)
  obtain ⟨⟨_, hdevice⟩, -⟩ | ⟨stream, text, hentries, hsaved, hnode⟩ := hplace
  · cases hdevice
  have hrun := congrArg (·.files.node? ["nodes.jsonl"]) (run_of_plan hread hplan)
  refine ⟨rfl, _, fun hsame ↦ ?_, hrun.trans hnode⟩
  -- the report does not begin as the store did
  obtain rfl := Text.Lines.toUTF8_toList_injective hsame
  obtain ⟨rest, rfl⟩ := exists_header hentries
  exact absurd (head?_of_saved hsaved) (by decide)

end Program

end TreeAudit
