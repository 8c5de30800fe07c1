import Minutes.Proofs.Command.Noted
import Minutes.Proofs.Files.Folders

/-!
What a run leaves behind. A run that fails changes no file, and one that succeeds at most the file
that its task writes, which then holds what the task would print. Before that, the user's own
configuration may have been made.
-/
namespace Minutes.Command
open Files Noted

/-- The file that a task writes, if it writes one. -/
def Task.destination? : Task → Option Path
  | .html folder write => if write then some (folder.join Workplace.pageName) else none
  | .text _ output | .email _ output => output
  | .index root => some (root.join Workplace.pageName)
  | .announce _ | .version => none

/-- A task that prints what a task writes. The page of the archive is never printed. -/
def Task.printing : Task → Task
  | .html folder _ => .html folder false
  | .text folder _ => .text folder none
  | .email folder _ => .email folder none
  | task => task

/-- What a task reads once the configuration is there. -/
def Request.reading (r : Request) (s : Surroundings) (config : Config) (store : Store) :
    Noted Product := do
  r.task.product (← Workplace.load s config store r.config)

namespace Workplace
variable {w : Workplace}

theorem read_of_returns_openMeeting {folder : Path} {m : Meeting}
    (h : (w.openMeeting folder).Returns m) : Meeting.read w.store folder = .ok m := by
  obtain ⟨m', hread, h⟩ := returns_bind h
  obtain ⟨-, -, h⟩ := returns_bind h
  obtain rfl := returns_pure h
  exact returns_orFail hread

theorem path_of_returns_openMeeting {folder : Path} {m : Meeting}
    (h : (w.openMeeting folder).Returns m) : m.path = folder := by
  have hread := read_of_returns_openMeeting h
  simp only [Meeting.read] at hread
  split at hread
  · cases hread
  · split at hread
    · split at hread
      · rw [← Except.ok.inj hread]
      · cases hread
    · cases hread

theorem path_ofText (text : String) (output : Option Path) :
    (Product.ofText text output).path = output := by
  cases output <;> rfl

theorem text_ofText (text : String) (output : Option Path) :
    (Product.ofText text output).text = text := by
  cases output <;> rfl

/-- The product of a task goes to the file that the task writes. -/
theorem path_of_returns_product {task : Task} {p : Product} (h : (task.product w).Returns p) :
    p.path = task.destination? := by
  cases task with
  | html folder write =>
    obtain ⟨m, hm, h⟩ := returns_bind h
    obtain ⟨shell, -, h⟩ := returns_bind h
    obtain ⟨minutes, -, h⟩ := returns_bind h
    obtain rfl := returns_pure h
    rw [Task.destination?, path_of_returns_openMeeting hm]
    cases write <;> rfl
  | text folder output =>
    obtain ⟨m, -, h⟩ := returns_bind h
    obtain ⟨minutes, -, h⟩ := returns_bind h
    obtain rfl := returns_pure h
    exact path_ofText _ output
  | index root =>
    obtain ⟨scan, -, h⟩ := returns_bind h
    obtain ⟨-, -, h⟩ := returns_bind h
    obtain ⟨shell, -, h⟩ := returns_bind h
    obtain rfl := returns_pure h
    rfl
  | email folder output =>
    obtain ⟨m, -, h⟩ := returns_bind h
    obtain ⟨minutes, -, h⟩ := returns_bind h
    obtain rfl := returns_pure h
    exact path_ofText _ output
  | announce folder =>
    obtain ⟨m, -, h⟩ := returns_bind h
    obtain ⟨minutes, -, h⟩ := returns_bind h
    obtain rfl := returns_pure h
    rfl
  | version =>
    obtain rfl := returns_pure h
    rfl

/-- A task prints the text that it would write. -/
theorem product_printing {task : Task} (h : ∀ root, task ≠ .index root) :
    task.printing.product w = (fun p => { text := p.text }) <$> task.product w := by
  cases task with
  | html folder write =>
    simp only [Task.printing, Task.product, html, map_bind, map_pure]
    cases write <;> rfl
  | text folder output =>
    simp only [Task.printing, Task.product, text, map_bind, map_pure, text_ofText]
    rfl
  | index root => exact absurd rfl (h root)
  | email folder output =>
    simp only [Task.printing, Task.product, email, map_bind, map_pure, text_ofText]
    rfl
  | announce folder =>
    simp only [Task.printing, Task.product, announce, map_bind, map_pure]
    rfl
  | version => rfl

end Workplace

/-- A run makes the user's own configuration if it is to be used and is missing. -/
def Request.MakesConfig (r : Request) (s : Surroundings) : Prop :=
  r.task ≠ .version ∧ r.config = none ∧ s.store.exists? s.configPath = false

/-- What is at a place has come there by making the user's own configuration: it is the file with
the defaults, or a folder on the way to it. -/
def Surroundings.Made (s : Surroundings) (after : Store) (l : Location) : Prop :=
  after.find s.configPath = .ok (l, .file (Config.text {}).toUTF8) ∨
    s.store.entry? l = none ∧ after.entry? l = some .folder ∧
      ∃ folder, s.configPath.parent? = some folder ∧ s.store.OnWay folder l

section
variable {s : Surroundings} {store : Store} {l k : Location}

theorem saveConfig_returns {path : Path} {config : Config} {saved : Store}
    (h : (saveConfig store path config).Returns saved) :
    ∃ folders l, store.makeFolders (path.parent?.getD "") = .ok folders ∧
      folders.writable path = .ok l ∧ saved = folders.put l (.file config.text.toUTF8) := by
  obtain ⟨folders, hfolders, h⟩ := returns_bind h
  obtain ⟨l, hl, hsaved⟩ := Store.write_eq_ok (returns_orFail h)
  exact ⟨folders, l, returns_orFail hfolders, hl, hsaved⟩

theorem made_of_saveConfig (h : (saveConfig s.store s.configPath {}).Returns store)
    (hk : store.entry? k ≠ s.store.entry? k) : s.Made store k := by
  obtain ⟨folders, l, hfolders, hl, rfl⟩ := saveConfig_returns h
  obtain ⟨htarget, hfolder⟩ := Store.target_of_writable hl
  by_cases hkl : k = l
  · rw [hkl]
    exact .inl (Store.find_put hfolder htarget)
  · have hput : Store.entry? (folders.put l (.file (Config.text {}).toUTF8)) k =
        folders.entry? k := by
      rw [Store.entry?_put (Store.ne_nil_of_not_isFolder hfolder), if_neg hkl]
    rcases Store.entry?_makeFolders hfolders k with hsame | ⟨hnone, hmade, hway⟩
    · exact absurd (hput.trans hsame) hk
    · refine .inr ⟨hnone, hput.trans hmade, ?_⟩
      cases hparent : s.configPath.parent? with
      | some folder =>
        rw [hparent] at hway
        exact ⟨folder, rfl, hway⟩
      | none =>
        -- Without a folder to make nothing has changed.
        rw [hparent, Option.getD_none, Store.makeFolders, if_pos rfl] at hfolders
        obtain rfl := Except.ok.inj hfolders
        exact absurd hput hk

/-- Looking for the configuration changes nothing unless it is made. -/
theorem store_of_findConfig {named : Option Path} {config : Config}
    (h : (findConfig s named).Returns (config, store)) :
    store = s.store ∨ named = none ∧ s.store.exists? s.configPath = false ∧
      (saveConfig s.store s.configPath {}).Returns store := by
  cases named with
  | some path =>
    obtain ⟨config', -, hpair⟩ := returns_map h
    exact .inl (Prod.mk.inj hpair).2
  | none =>
    simp only [findConfig, ownConfig] at h
    split_ifs at h with hexists
    · obtain ⟨config', -, h⟩ := returns_bind h
      exact .inl (Prod.mk.inj (returns_pure h)).2
    · obtain ⟨-, -, h⟩ := returns_bind h
      obtain ⟨made, hmade, h⟩ := returns_bind h
      obtain ⟨-, rfl⟩ := Prod.mk.inj (returns_pure h)
      exact .inr ⟨rfl, Bool.eq_false_of_not_eq_true hexists, hmade⟩

/-- A file that is written later takes nothing from what has been made, except in its own place. -/
theorem Surroundings.Made.put {bytes : ByteArray} (h : s.Made store k)
    (hl : store.isFolder l = false) (hkl : k ≠ l) : s.Made (store.put l (.file bytes)) k := by
  rcases h with hfile | ⟨hnone, hfolder, hway⟩
  · left
    have htarget : store.target s.configPath ≠ .ok l := by
      intro htarget
      rw [Store.target_of_find hfile] at htarget
      exact hkl (Except.ok.inj htarget)
    have hfind : ((store.put l (.file bytes)).find s.configPath).toOption =
        (store.find s.configPath).toOption := Store.toOption_find_put hl htarget
    rw [hfile] at hfind
    exact Store.toOption_eq_some_iff.mp hfind
  · refine .inr ⟨hnone, ?_, hway⟩
    rw [Store.entry?_put (Store.ne_nil_of_not_isFolder hl), if_neg hkl]
    exact hfolder

end

namespace Request
variable {r : Request} {s : Surroundings} {config : Config} {store : Store}
  {notes notes' : List Note}

theorem work_of_config_failure {failure : Failure}
    (hc : (findConfig s r.config).run [] = (.error failure, notes)) :
    r.work s = { store := s.store, notes, failure := some failure } := by
  change findConfig s r.config [] = _ at hc
  simp only [work, hc]

theorem work_of_failure {failure : Failure}
    (hc : (findConfig s r.config).run [] = (.ok (config, store), notes))
    (hp : (r.reading s config store).run notes = (.error failure, notes')) :
    r.work s = { store, notes := notes', failure := some failure } := by
  change findConfig s r.config [] = _ at hc
  change r.reading s config store notes = _ at hp
  unfold reading at hp
  simp only [work, hc, hp]

theorem work_of_product {p : Product}
    (hc : (findConfig s r.config).run [] = (.ok (config, store), notes))
    (hp : (r.reading s config store).run notes = (.ok p, notes')) :
    r.work s = p.deliver store notes' := by
  change findConfig s r.config [] = _ at hc
  change r.reading s config store notes = _ at hp
  unfold reading at hp
  simp only [work, hc, hp]

theorem path_of_returns_reading {p : Product} (h : (r.reading s config store).Returns p) :
    p.path = r.task.destination? := by
  obtain ⟨w, -, h⟩ := returns_bind h
  exact Workplace.path_of_returns_product h

theorem reading_printing (h : ∀ root, r.task ≠ .index root) :
    ({ r with task := r.task.printing } : Request).reading s config store =
      (fun p => { text := p.text }) <$> r.reading s config store := by
  simp only [reading, Workplace.product_printing h, map_bind]

end Request

theorem deliver_of_path_none {p : Product} (h : p.path = none) (store : Store)
    (notes : List Note) : p.deliver store notes = { store, printed := p.text, notes } := by
  simp only [Product.deliver, h]

/-- A request that only prints has the product of the one that writes. -/
theorem Request.run_printing {r : Request} {s : Surroundings} {config : Config} {store : Store}
    {notes notes' : List Note} {p : Product} (hv : r.task ≠ .version)
    (hindex : ∀ root, r.task ≠ .index root)
    (hc : (findConfig s r.config).run [] = (.ok (config, store), notes))
    (hp : (r.reading s config store).run notes = (.ok p, notes')) :
    ({ r with task := r.task.printing } : Request).run s =
      { store, printed := p.text, notes := notes' } := by
  have hprinting : r.task.printing ≠ .version := by
    intro h
    cases ht : r.task with
    | version => exact hv ht
    | _ => rw [ht] at h; cases h
  have hshown : (({ r with task := r.task.printing } : Request).reading s config store).run notes =
      (.ok { text := p.text }, notes') := by
    rw [reading_printing hindex, run_map, hp]
    rfl
  rw [run, if_neg hprinting]
  exact work_of_product (r := { r with task := r.task.printing }) hc hshown

/-- A product that cannot be written is a failure, and else the file holds it. -/
theorem deliver_of_path_some {p : Product} {path : Path} (h : p.path = some path) (store : Store)
    (notes : List Note) :
    ((p.deliver store notes).failure ≠ none ∧ (p.deliver store notes).store = store) ∨
      (p.deliver store notes).failure = none ∧ ∃ l, store.writable path = .ok l ∧
        (p.deliver store notes).store = store.put l (.file p.text.toUTF8) := by
  simp only [Product.deliver, h]
  cases hw : store.write path p.text with
  | error fault => exact .inl ⟨nofun, rfl⟩
  | ok written =>
    obtain ⟨l, hl, rfl⟩ := Store.write_eq_ok hw
    exact .inr ⟨rfl, l, hl, rfl⟩

/-- The store that a task works on: that of the surroundings, or else what is left of it after the
user's own configuration has been made. -/
def Request.Prepares (r : Request) (s : Surroundings) (store : Store) : Prop :=
  store = s.store ∨ r.MakesConfig s ∧ (saveConfig s.store s.configPath {}).Returns store

theorem Request.Prepares.made {r : Request} {s : Surroundings} {store : Store} {l : Location}
    (h : r.Prepares s store) (hl : store.entry? l ≠ s.store.entry? l) :
    r.MakesConfig s ∧ s.Made store l := by
  rcases h with rfl | ⟨hmakes, hmade⟩
  · exact absurd rfl hl
  · exact ⟨hmakes, made_of_saveConfig hmade hl⟩

/-- Everything that a run can do to the files: nothing once the configuration is there, or, if it
succeeds, to put the text that would be printed where its task writes. -/
theorem Request.run_cases (r : Request) (s : Surroundings) :
    ∃ store, r.Prepares s store ∧
      ((r.run s).store = store ∧ ((r.run s).failure = none → r.task.destination? = none) ∨
        (r.run s).failure = none ∧ ∃ path l text, r.task.destination? = some path ∧
          store.writable path = .ok l ∧ (r.run s).store = store.put l (.file text.toUTF8) ∧
          ((∀ root, r.task ≠ .index root) →
            let shown := ({ r with task := r.task.printing } : Request).run s
            shown.failure = none ∧ shown.printed = text)) := by
  by_cases hv : r.task = .version
  · refine ⟨s.store, .inl rfl, .inl ⟨?_, fun _ => ?_⟩⟩
    · rw [run, if_pos hv]
    · rw [hv]
      rfl
  have hrun : r.run s = r.work s := if_neg hv
  rcases hc : (findConfig s r.config).run [] with ⟨failure | ⟨config, store⟩, notes⟩
  · rw [hrun, work_of_config_failure hc]
    exact ⟨s.store, .inl rfl, .inl ⟨rfl, nofun⟩⟩
  have hprepares : r.Prepares s store := by
    rcases store_of_findConfig ⟨[], by rw [hc]⟩ with hsame | ⟨hnamed, hmissing, hmade⟩
    · exact .inl hsame
    · exact .inr ⟨⟨hv, hnamed, hmissing⟩, hmade⟩
  refine ⟨store, hprepares, ?_⟩
  rcases hp : (r.reading s config store).run notes with ⟨failure | p, notes'⟩
  · rw [hrun, work_of_failure hc hp]
    exact .inl ⟨rfl, nofun⟩
  have hpath := path_of_returns_reading ⟨notes, by rw [hp]⟩
  rw [hrun, work_of_product hc hp]
  cases hd : r.task.destination? with
  | none =>
    rw [deliver_of_path_none (hpath.trans hd)]
    exact .inl ⟨rfl, fun _ => rfl⟩
  | some path =>
    rcases deliver_of_path_some (hpath.trans hd) store notes' with
      ⟨hfailure, hstore⟩ | ⟨hfailure, l, hl, hstore⟩
    · exact .inl ⟨hstore, fun hnone => absurd hnone hfailure⟩
    · refine .inr ⟨hfailure, path, l, p.text, rfl, hl, hstore, fun hindex => ?_⟩
      rw [run_printing hv hindex hc hp]
      exact ⟨rfl, rfl⟩

/-- A run changes only what making the user's own configuration changes, if that is missing and no
other is named, and the file that the task writes, if it succeeds. That file then holds what the
task prints if it is not to write. -/
theorem Request.run_changes (r : Request) (s : Surroundings) :
    let o := r.run s
    (∀ l, o.store.entry? l ≠ s.store.entry? l →
      r.MakesConfig s ∧ s.Made o.store l ∨
        o.failure = none ∧ ∃ path, r.task.destination? = some path ∧
          o.store.target path = .ok l) ∧
    ∀ path, r.task.destination? = some path → o.failure = none →
      ∃ l text, o.store.find path = .ok (l, .file text.toUTF8) ∧
        ((∀ root, r.task ≠ .index root) →
          let shown := ({ r with task := r.task.printing } : Request).run s
          shown.failure = none ∧ shown.printed = text) := by
  intro o
  obtain ⟨store, hprepares, ⟨hstore, hunwritten⟩ |
    ⟨hsuccess, path, l, text, hd, hl, hstore, hshown⟩⟩ := run_cases r s
  · refine ⟨fun k hk => .inl ?_, fun path hpath hsuccess => ?_⟩
    · rw [show o.store = store from hstore] at hk ⊢
      exact hprepares.made hk
    · rw [hunwritten hsuccess] at hpath
      cases hpath
  · obtain ⟨htarget, hfolder⟩ := Store.target_of_writable hl
    rw [show o.store = store.put l (.file text.toUTF8) from hstore]
    constructor
    · intro k hk
      by_cases hkl : k = l
      · right
        refine ⟨hsuccess, path, hd, ?_⟩
        rw [hkl]
        exact (Store.target_put_eq_ok_iff hfolder).mpr htarget
      · left
        rw [Store.entry?_put (Store.ne_nil_of_not_isFolder hfolder), if_neg hkl] at hk
        obtain ⟨hmakes, hmade⟩ := hprepares.made hk
        exact ⟨hmakes, hmade.put hfolder hkl⟩
    · intro path' hpath' _
      obtain rfl : path = path' := Option.some.inj (hd.symm.trans hpath')
      exact ⟨l, text, Store.find_put hfolder htarget, hshown⟩

theorem Request.run_changes_text_output :
    let s : Surroundings :=
      { store := { entries := [(["2013-02-05"], .folder),
          (["2013-02-05", "irc.log"], .file "[1] <ann> topic: Budget".toUTF8)] }
        home := "/home/scrawl", today := ⟨2013, 2, 5, by decide⟩ }
    let r : Request := { task := .text "2013-02-05" (some "minutes.txt") }
    let o := r.run s
    (r.task.destination? = some "minutes.txt" ∧ o.failure = none ∧ r.MakesConfig s ∧
      o.store.entry? ["home"] ≠ s.store.entry? ["home"]) ∧
    s.Made o.store ["home"] ∧
    ∃ l text, o.store.find "minutes.txt" = .ok (l, .file text.toUTF8) ∧
      let shown := ({ r with task := r.task.printing } : Request).run s
      shown.failure = none ∧ shown.printed = text := by
  intro s r o
  have hfailure : o.failure = none := by
    have : o.failure.isNone = true := by decide +kernel
    exact Option.isNone_iff_eq_none.mp this
  have hmakes : r.MakesConfig s := ⟨by decide, rfl, by decide +kernel⟩
  have hhome : o.store.entry? ["home"] ≠ s.store.entry? ["home"] := by decide +kernel
  obtain ⟨hchanged, hwritten⟩ := Request.run_changes r s
  have hmade : s.Made o.store ["home"] := by
    rcases hchanged ["home"] hhome with ⟨-, hmade⟩ | ⟨-, path, hpath, htarget⟩
    · exact hmade
    · obtain rfl := Option.some.inj hpath
      have hplace : (o.store.target "minutes.txt").toOption ≠ some ["home"] := by decide +kernel
      exact absurd (Store.toOption_eq_some_iff.mpr htarget) hplace
  obtain ⟨l, text, hfind, hshown⟩ := hwritten "minutes.txt" rfl hfailure
  exact ⟨⟨rfl, hfailure, hmakes, hhome⟩, hmade, l, text, hfind, hshown nofun⟩

end Minutes.Command
