import Minutes.Proofs.Command.Changes

/-!
The files that a request looks at, and that it looks at nothing else: a file that is written in
another place changes no result.
-/
namespace Minutes
open Files Store

/-- What opening the folder of a meeting looks for, as far as it gets. -/
def Meeting.lookups (store : Store) (folder : Path) : List Path :=
  match Meeting.read store folder with
  | .error (.undated _) => []
  | .error _ => [folder.join transcriptName]
  | .ok _ => [folder.join transcriptName, folder.join recordingName]

/-- The transcripts that a scan of an archive looks for. -/
def Archive.lookups (store : Store) (root : Path) : List Path :=
  match store.find root with
  | .error _ => []
  | .ok (l, _) => (store.folderNames l).map fun name => (root.join name).join transcriptName

namespace Command

/-- Files that are read in turn, those that are set, up to one that cannot be read. -/
def readInTurn (store : Store) : List (Option Path) → List Path
  | [] => []
  | none :: paths => readInTurn store paths
  | some path :: paths =>
    path :: if (store.read path).toOption.isSome then readInTurn store paths else []

def PagePaths.lookups (store : Store) (page : PagePaths) : List Path :=
  readInTurn store [page.header, page.footer, page.indexIntro]

/-- What a task looks for, as far as it gets. -/
def Task.lookups (w : Workplace) : Task → List Path
  | .html folder _ =>
    Meeting.lookups w.store folder ++
      match Meeting.read w.store folder with
      | .ok _ => PagePaths.lookups w.store w.config.page
      | .error _ => []
  | .text folder _ | .email folder _ | .announce folder => Meeting.lookups w.store folder
  | .index root =>
    Archive.lookups w.store root ++
      if w.store.exists? root then PagePaths.lookups w.store w.config.page else []
  | .version => []

/-- What a request looks for as its configuration, its roster, the texts around a page, transcripts
and recordings, as far as it gets. -/
def Request.lookups (r : Request) (s : Surroundings) : List Path :=
  if r.task = .version then []
  else
    r.config.getD s.configPath ::
      match ((findConfig s r.config).run []).1 with
      | .error _ => []
      | .ok (config, store) =>
        config.rosterPath s.home r.config ::
          match ((Workplace.load s config store r.config).run []).1 with
          | .error _ => []
          | .ok w => r.task.lookups w

end Command

section
variable {store : Store} {l : Location} {bytes : ByteArray} (hl : store.isFolder l = false)
include hl

/-- Under a place that holds no folder there is no file. -/
theorem Files.Store.isFile_join_of_target {folder name : Path} (hf : store.target folder = .ok l)
    (hn : '/' ∉ name.toList) : store.isFile (folder.join name) = false := by
  unfold isFile
  cases h : store.find (folder.join name) with
  | error fault => rfl
  | ok found =>
    obtain ⟨m, e⟩ := found
    have hstep := step_of_target_join hf hn (target_of_find h)
    rw [isFolder_of_step hstep] at hl
    cases hl

namespace Meeting

omit hl in
/-- A meeting is made of the names that lead to its folder, of its transcript, and of whether there
is a recording. -/
theorem toOption_read (store : Store) (folder : Path) :
    (read store folder).toOption =
      (Calendar.dateOfNames? (namesTo store folder)).bind fun date =>
        (store.read (folder.join transcriptName)).toOption.map fun text =>
          { path := folder, key := (namesTo store folder).getLast?.getD date.iso, date
            transcript := text, audio := store.isFile (folder.join recordingName) } := by
  simp only [read]
  cases hd : Calendar.dateOfNames? (namesTo store folder) with
  | none => rfl
  | some date =>
    cases hr : store.read (folder.join transcriptName) with
    | ok text =>
      simp only [isFile_of_read hr, if_true]
      rfl
    | error fault => split_ifs <;> rfl

omit hl in
theorem transcript_mem_lookups {folder : Path} {date : Date}
    (hd : Calendar.dateOfNames? (namesTo store folder) = some date) :
    folder.join transcriptName ∈ lookups store folder := by
  unfold lookups
  split
  · rename_i place hread
    simp only [read, hd] at hread
    split at hread
    · split at hread <;> cases hread
    · cases hread
  · exact List.mem_singleton_self _
  · exact List.mem_cons_self

omit hl in
theorem recording_mem_lookups {folder : Path} {m : Meeting} (h : read store folder = .ok m) :
    folder.join recordingName ∈ lookups store folder := by
  simp [lookups, h]

theorem toOption_read_put {folder : Path} (h : store.Avoids (lookups store folder) l) :
    (read (store.put l (.file bytes)) folder).toOption = (read store folder).toOption := by
  by_cases hf : store.target folder = .ok l
  · -- Neither before nor after is there a transcript in what is no folder.
    have hnone {store : Store} (hl : store.isFolder l = false) (hf : store.target folder = .ok l) :
        (read store folder).toOption = none := by
      have htranscript : store.isFile (folder.join transcriptName) = false :=
        isFile_join_of_target hl hf (by decide)
      have hread : (store.read (folder.join transcriptName)).toOption = none := by
        cases hr : store.read (folder.join transcriptName) with
        | error fault => rfl
        | ok text =>
          rw [isFile_of_read hr] at htranscript
          cases htranscript
      rw [toOption_read, hread]
      cases Calendar.dateOfNames? (namesTo store folder) <;> rfl
    rw [hnone hl hf]
    exact hnone (isFolder_put hl l ▸ hl) ((target_put_eq_ok_iff hl).mpr hf)
  · have hnames : namesTo (store.put l (.file bytes)) folder = namesTo store folder := by
      have hlocate {a : Store} : a.locate? folder = (a.find folder).toOption.map (·.1) := by
        unfold locate?
        cases a.find folder <;> rfl
      rw [namesTo, namesTo, hlocate, hlocate, toOption_find_put hl hf]
    rw [toOption_read, toOption_read, hnames]
    refine Option.bind_congr fun date hd => ?_
    have htranscript := h _ (transcript_mem_lookups hd)
    rw [toOption_read_congr (entryAt?_put hl htranscript)]
    cases hr : (store.read (folder.join transcriptName)).toOption with
    | none => rfl
    | some text =>
      have hread := toOption_read store folder
      rw [hd, hr] at hread
      have hrecording := h _ (recording_mem_lookups (toOption_eq_some_iff.mp hread))
      rw [isFile_congr (entryAt?_put hl hrecording)]

end Meeting

namespace Archive

omit hl in
theorem exists?_of_scan {c : Compiler} {root : Path} {result : Scan}
    (h : scan store c root = .ok result) : store.exists? root = true := by
  unfold scan at h
  cases hroot : store.find root with
  | error fault =>
    rw [hroot] at h
    cases h
  | ok found => simp [exists?, locate?, hroot, Except.map, Except.toOption]

/-- A scan sees the folders of the root and their transcripts. -/
theorem toOption_scan_put {c : Compiler} {root : Path} (hr : store.target root ≠ .ok l)
    (h : store.Avoids (lookups store root) l) :
    (scan (store.put l (.file bytes)) c root).toOption = (scan store c root).toOption := by
  have hfind : ((store.put l (.file bytes)).find root).toOption = (store.find root).toOption :=
    toOption_find_put hl hr
  cases hroot : store.find root with
  | error fault =>
    rw [hroot] at hfind
    cases hput : (store.put l (.file bytes)).find root with
    | error fault' => rw [scan, scan, hroot, hput]; rfl
    | ok found =>
      rw [hput] at hfind
      cases hfind
  | ok found =>
    rw [hroot] at hfind
    have hput := toOption_eq_some_iff.mp hfind
    have hvisits : (store.folderNames found.1).map (visit (store.put l (.file bytes)) c root) =
        (store.folderNames found.1).map (visit store c root) := by
      refine List.map_congr_left fun name hname => ?_
      have hmem : (root.join name).join transcriptName ∈ lookups store root := by
        rw [lookups, hroot]
        exact List.mem_map_of_mem hname
      have hfile : (store.put l (.file bytes)).isFile ((root.join name).join transcriptName) =
          store.isFile ((root.join name).join transcriptName) :=
        isFile_congr (entryAt?_put hl (h _ hmem))
      simp only [visit, hfile]
      split_ifs with hthere
      · rw [read_put hl (h _ hmem) hthere]
      · rfl
    rw [scan, scan, hroot, hput]
    simp only [Except.map, folderNames_put hl, hvisits]

end Archive
end

namespace Command
open Noted

section
variable {store : Store} {l : Location} {bytes : ByteArray} (hl : store.isFolder l = false)
include hl

theorem agree_readConfig {path : Path} (h : store.target path ≠ .ok l) :
    Agree Eq (readConfig store path) (readConfig (store.put l (.file bytes)) path) := by
  have hread : ((store.put l (.file bytes)).read path).toOption = (store.read path).toOption :=
    toOption_read_congr (entryAt?_put hl h)
  refine (agree_orFail hread.symm).bind fun text _ _ htext => ?_
  subst htext
  cases Config.read? text with
  | none => exact agree_throw _ _
  | some config => exact (agree_take _ _).bind fun _ _ _ _ => agree_pure rfl

theorem agree_readRoster {path : Path} (h : store.target path ≠ .ok l) :
    Agree Eq (readRoster store path) (readRoster (store.put l (.file bytes)) path) := by
  have hread : ((store.put l (.file bytes)).read path).toOption = (store.read path).toOption :=
    toOption_read_congr (entryAt?_put hl h)
  refine (agree_orFail hread.symm).bind fun text _ _ htext => ?_
  subst htext
  refine (agree_orFail rfl).bind fun roster _ _ hroster => ?_
  subst hroster
  exact (agree_take _ _).bind fun _ _ _ _ => agree_pure rfl

theorem agree_findRoster {config : Config} {path : Path} (h : store.target path ≠ .ok l) :
    Agree Eq (findRoster store config path)
      (findRoster (store.put l (.file bytes)) config path) := by
  have hexists : (store.put l (.file bytes)).exists? path = store.exists? path :=
    exists?_congr (entryAt?_put hl h)
  simp only [findRoster, hexists]
  split_ifs
  · exact agree_readRoster hl h
  · exact (agree_take _ _).bind fun _ _ _ _ => agree_pure rfl

end

/-- A workplace after a file has been put in a place of its store. -/
def Workplace.after (w : Workplace) (l : Location) (bytes : ByteArray) : Workplace :=
  { w with store := w.store.put l (.file bytes) }

theorem Workplace.eq_of_after_eq {w w' : Workplace} {l : Location} {bytes : ByteArray}
    (hstore : w.store = w'.store) (h : w.after l bytes = w'.after l bytes) : w = w' := by
  cases w
  cases w'
  obtain ⟨-, hconfig, hcompiler⟩ := Workplace.mk.inj h
  rw [Workplace.mk.injEq]
  exact ⟨hstore, hconfig, hcompiler⟩

theorem agree_load {s : Surroundings} {config : Config} {named : Option Path} {l : Location}
    (hl : s.store.isFolder l = false) (bytes : ByteArray)
    (h : s.store.target (config.rosterPath s.home named) ≠ .ok l) :
    Agree (fun w w' => w.store = s.store ∧ w' = w.after l bytes)
      (Workplace.load s config s.store named)
      (Workplace.load { s with store := s.store.put l (.file bytes) } config
        (s.store.put l (.file bytes)) named) := by
  refine (agree_findRoster hl h).bind fun roster _ _ hroster => ?_
  subst hroster
  exact (agree_take _ _).bind fun _ _ _ _ => agree_pure ⟨rfl, rfl⟩

namespace Workplace
variable {w : Workplace} {l : Location} {bytes : ByteArray}

theorem agree_compile (m : Meeting) (mode : Mode) :
    Agree Eq (w.compile m mode) ((w.after l bytes).compile m mode) :=
  (agree_takeAll _ _).bind fun _ _ _ _ => agree_pure rfl

/-- A text of the page that has been read lets the next one be read. -/
theorem avoids_of_returns_pageText {path : Option Path} {paths : List (Option Path)}
    {default text : String} (h : w.store.Avoids (readInTurn w.store (path :: paths)) l)
    (hr : (w.pageText path default).Returns text) :
    w.store.Avoids (readInTurn w.store paths) l := by
  cases path with
  | none => exact h
  | some path =>
    obtain ⟨-, -, hr⟩ := returns_bind hr
    have hread : (w.store.read path).toOption.isSome = true := by
      rw [returns_orFail hr]
      rfl
    intro p hp
    refine h p ?_
    rw [readInTurn, if_pos hread]
    exact List.mem_cons_of_mem path hp

variable (hl : w.store.isFolder l = false)
include hl

theorem agree_openMeeting {folder : Path} (h : w.store.Avoids (Meeting.lookups w.store folder) l) :
    Agree Eq (w.openMeeting folder) ((w.after l bytes).openMeeting folder) := by
  refine (agree_orFail (Meeting.toOption_read_put hl h).symm).bind fun m _ _ hm => ?_
  subst hm
  exact (agree_take _ _).bind fun _ _ _ _ => agree_pure rfl

theorem agree_pageText {path : Option Path} {paths : List (Option Path)} (default : String)
    (h : w.store.Avoids (readInTurn w.store (path :: paths)) l) :
    Agree Eq (w.pageText path default) ((w.after l bytes).pageText path default) := by
  cases path with
  | none => exact agree_pure rfl
  | some path =>
    have hpath := h path List.mem_cons_self
    have hread : ((w.after l bytes).store.read path).toOption = (w.store.read path).toOption :=
      toOption_read_congr (entryAt?_put hl hpath)
    exact (agree_take _ _).bind fun _ _ _ _ => agree_orFail hread.symm

theorem agree_pageShell (h : w.store.Avoids (PagePaths.lookups w.store w.config.page) l) :
    Agree Eq w.pageShell (w.after l bytes).pageShell := by
  refine (agree_pageText hl _ h).bind fun header _ hheader heq => ?_
  subst heq
  have h := avoids_of_returns_pageText h hheader
  refine (agree_pageText hl _ h).bind fun footer _ hfooter heq => ?_
  subst heq
  have h := avoids_of_returns_pageText h hfooter
  refine (agree_pageText hl _ h).bind fun intro _ hintro heq => ?_
  subst heq
  exact agree_pure rfl

/-- What is made of a meeting and of its minutes in text is the same. -/
theorem agree_ofMeeting {folder : Path} (h : w.store.Avoids (Meeting.lookups w.store folder) l)
    (f : Meeting → Compiled → Product) :
    Agree Eq
      (do
        let m ← w.openMeeting folder
        let minutes ← w.compile m .text
        pure (f m minutes))
      (do
        let m ← (w.after l bytes).openMeeting folder
        let minutes ← (w.after l bytes).compile m .text
        pure (f m minutes)) := by
  refine (agree_openMeeting hl h).bind fun m _ _ hm => ?_
  subst hm
  refine (agree_compile m .text).bind fun minutes _ _ hminutes => ?_
  subst hminutes
  exact agree_pure rfl

/-- A task makes the same product after a file has been put where it does not look. -/
theorem agree_product {task : Task} (hroot : ∀ root, task = .index root →
      w.store.target root ≠ .ok l) (h : w.store.Avoids (task.lookups w) l) :
    Agree Eq (task.product w) (task.product (w.after l bytes)) := by
  cases task with
  | html folder write =>
    refine (agree_openMeeting hl fun p hp => h p (List.mem_append_left _ hp)).bind
      fun m _ hm hmm => ?_
    subst hmm
    have hpage : w.store.Avoids (PagePaths.lookups w.store w.config.page) l := by
      intro p hp
      refine h p (List.mem_append_right _ ?_)
      rw [read_of_returns_openMeeting hm]
      exact hp
    refine (agree_pageShell hl hpage).bind fun shell _ _ hshell => ?_
    subst hshell
    refine (agree_compile m .html).bind fun minutes _ _ hminutes => ?_
    subst hminutes
    exact agree_pure rfl
  | text folder output => exact agree_ofMeeting hl h _
  | index root =>
    have hscan : (Archive.scan (w.after l bytes).store w.compiler root).toOption =
        (Archive.scan w.store w.compiler root).toOption :=
      Archive.toOption_scan_put hl (hroot root rfl) fun p hp => h p (List.mem_append_left _ hp)
    refine (agree_orFail hscan.symm).bind fun scan _ hreturns hs => ?_
    subst hs
    refine (agree_takeAll _ _).bind fun _ _ _ _ => ?_
    have hpage : w.store.Avoids (PagePaths.lookups w.store w.config.page) l := by
      intro p hp
      refine h p (List.mem_append_right _ ?_)
      rw [Archive.exists?_of_scan (returns_orFail hreturns), if_pos rfl]
      exact hp
    refine (agree_pageShell hl hpage).bind fun shell _ _ hshell => ?_
    subst hshell
    exact agree_pure rfl
  | email folder output => exact agree_ofMeeting hl h _
  | announce folder => exact agree_ofMeeting hl h _
  | version => exact agree_pure rfl

end Workplace
end Command
end Minutes
