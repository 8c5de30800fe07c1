import Minutes.Proofs.Command.Configured
import Minutes.Proofs.Command.Lookups

/-!
Publishing again, and publishing in another order. A run that writes a file puts one text in one
place, and both are the same after a file has been written where the run does not look.
-/
namespace Minutes.Command
open Files Noted

/-- Surroundings after a file has been put in a place of their store. -/
def Surroundings.after (s : Surroundings) (l : Location) (bytes : ByteArray) : Surroundings :=
  { s with store := s.store.put l (.file bytes) }

namespace Request

/-- None of the paths that a request looks for leads to where a path leads. -/
def Overlooks (r : Request) (s : Surroundings) (p : Path) : Prop :=
  ∀ q ∈ r.lookups s, ¬ s.store.SamePlace p q

instance (r : Request) (s : Surroundings) (p : Path) : Decidable (r.Overlooks s p) :=
  inferInstanceAs (Decidable (∀ q ∈ r.lookups s, ¬ s.store.SamePlace p q))

/-- Where a request with a configuration puts a file, and the text of the file. -/
def written? (r : Request) (s : Surroundings) : Option (Location × String) :=
  ((r.product s).run []).1.toOption.bind fun p =>
    p.path.bind fun path => (s.store.writable path).toOption.map fun l => (l, p.text)

variable {r : Request} {s : Surroundings} {path : Path} {l : Location} {bytes : ByteArray}

theorem ne_version_of_destination (hd : r.task.destination? = some path) :
    r.task ≠ .version := by
  intro hv
  rw [hv] at hd
  cases hd

/-- The outcome of a run is what it writes, and it fails if it writes nothing. -/
theorem run_eq_written (hc : r.HasConfig s) (hd : r.task.destination? = some path) :
    (r.run s).store = (r.written? s).elim s.store (fun w => s.store.put w.1 (.file w.2.toUTF8)) ∧
      (r.run s).failure.isSome = (r.written? s).isNone := by
  have hv := ne_version_of_destination hd
  rw [run_of_hasConfig hv hc, written?]
  rcases hp : (r.product s).run [] with ⟨failure | p, notes⟩
  · exact ⟨rfl, rfl⟩
  · have hpath := (path_of_returns_product ⟨[], by rw [hp]⟩).trans hd
    simp only [Product.deliver, hpath, Store.write]
    cases hw : s.store.writable path with
    | error fault => simp [Except.toOption, Except.map, hpath, hw]
    | ok l => simp [Except.toOption, Except.map, hpath, hw]

/-- What is written goes to where the destination of the task leads. -/
theorem writable_of_written (hd : r.task.destination? = some path) {text : String}
    (h : r.written? s = some (l, text)) : s.store.writable path = .ok l := by
  obtain ⟨p, hp, h⟩ := Option.bind_eq_some_iff.mp h
  obtain ⟨path', hpath, h⟩ := Option.bind_eq_some_iff.mp h
  obtain ⟨l', hl, h⟩ := Option.map_eq_some_iff.mp h
  obtain ⟨rfl, -⟩ := Prod.mk.inj h
  rw [path_of_returns_product ⟨[], Store.toOption_eq_some_iff.mp hp⟩, hd] at hpath
  rw [Option.some.inj hpath]
  exact Store.toOption_eq_some_iff.mp hl

theorem lookups_eq (hv : r.task ≠ .version) (hc : r.HasConfig s) {config : Config}
    (hconfig : ((readConfig s.store (r.configPath s)).run []).1 = .ok config) :
    r.lookups s = r.configPath s :: config.rosterPath s.home r.config ::
      match ((Workplace.load s config s.store r.config).run []).1 with
      | .error _ => []
      | .ok w => r.task.lookups w := by
  rw [lookups, if_neg hv, findConfig_of_hasConfig hc, run_map, hconfig]
  rfl

section
variable (hl : s.store.isFolder l = false) (hv : r.task ≠ .version) (hc : r.HasConfig s)
  (h : s.store.Avoids (r.lookups s) l)
include hv h

theorem target_configPath_ne : s.store.target (r.configPath s) ≠ .ok l := by
  refine h _ ?_
  rw [lookups, if_neg hv]
  exact List.mem_cons_self

include hl in
theorem hasConfig_after : r.HasConfig (s.after l bytes) ↔ r.HasConfig s := by
  have hentry : (s.after l bytes).store.entryAt? (r.configPath s) =
      s.store.entryAt? (r.configPath s) := Store.entryAt?_put hl (target_configPath_ne hv h)
  exact iff_of_eq (congrArg (· = true) (Store.exists?_congr hentry))

include hl hc in
/-- A request makes the same product after a file has been put where it does not look. -/
theorem agree_product (hroot : ∀ root, r.task = .index root → s.store.target root ≠ .ok l) :
    Agree Eq (r.product s) (r.product (s.after l bytes)) := by
  have hconfigs : Agree Eq (readConfig s.store (r.configPath s))
      (readConfig (s.after l bytes).store (r.configPath s)) :=
    agree_readConfig hl (target_configPath_ne hv h)
  refine hconfigs.bind fun config _ hconfig heq => ?_
  subst heq
  have hconfig := hconfigs.run_of_returns (by rintro _ _ _ rfl rfl; rfl) hconfig []
  have hlookups := lookups_eq hv hc hconfig
  have hroster : s.store.target (config.rosterPath s.home r.config) ≠ .ok l := by
    refine h _ ?_
    rw [hlookups]
    exact List.mem_cons_of_mem _ List.mem_cons_self
  have hloads := agree_load hl bytes hroster
  refine hloads.bind fun w _ hw hafter => ?_
  obtain ⟨hstore, rfl⟩ := hafter
  have hw := hloads.run_of_returns (fun _ _ _ ha ha' =>
    Workplace.eq_of_after_eq (ha.1.trans ha'.1.symm) (ha.2.symm.trans ha'.2)) hw []
  have htask : w.store.Avoids (r.task.lookups w) l := by
    intro p hp
    rw [hstore]
    refine h p ?_
    rw [hlookups, hw]
    exact List.mem_cons_of_mem _ (List.mem_cons_of_mem _ hp)
  rw [← hstore] at hl hroot
  exact Workplace.agree_product hl hroot htask

end

/-- Nothing can be written under a place that holds no folder. -/
theorem toOption_writable_of_root {store : Store} {root : Path} (hl : store.isFolder l = false)
    (hroot : store.target root = .ok l) :
    (store.writable (root.join Workplace.pageName)).toOption = none := by
  cases hw : store.writable (root.join Workplace.pageName) with
  | error fault => rfl
  | ok k =>
    have hstep := Store.step_of_target_join hroot (by decide) (Store.target_of_writable hw).1
    rw [Store.isFolder_of_step hstep] at hl
    cases hl

theorem written_eq_none (hd : r.task.destination? = some path)
    (hw : (s.store.writable path).toOption = none) : r.written? s = none := by
  cases h : r.written? s with
  | none => rfl
  | some written =>
    rw [writable_of_written hd h] at hw
    cases hw

/-- A request writes the same to the same place after a file has been put where it does not look. -/
theorem written_after (hl : s.store.isFolder l = false) (hc : r.HasConfig s)
    (hd : r.task.destination? = some path) (h : s.store.Avoids (r.lookups s) l) :
    r.written? (s.after l bytes) = r.written? s := by
  by_cases hroot : ∀ root, r.task = .index root → s.store.target root ≠ .ok l
  · have hproduct : Agree Eq (r.product s) (r.product (s.after l bytes)) :=
      agree_product hl (ne_version_of_destination hd) hc h hroot
    unfold written?
    rw [(hproduct [] []).toOption_eq]
    refine Option.bind_congr fun p _ => Option.bind_congr fun path _ => ?_
    rw [Surroundings.after, Store.toOption_writable_put hl]
  · -- An archive in a place that holds no folder has no page, before and after.
    simp only [not_forall, not_not] at hroot
    obtain ⟨root, htask, hroot⟩ := hroot
    obtain rfl : root.join Workplace.pageName = path := by
      rw [htask] at hd
      exact Option.some.inj hd
    have hwritable := toOption_writable_of_root hl hroot
    have hafter : ((s.after l bytes).store.writable (root.join Workplace.pageName)).toOption =
        none := by
      rw [Surroundings.after, Store.toOption_writable_put hl, hwritable]
    rw [written_eq_none hd hwritable, written_eq_none hd hafter]

/-- A run does not change what a request writes that does not look where the run writes. -/
theorem written_after_run {r' : Request} {path' : Path} (hc : r.HasConfig s)
    (hd : r.task.destination? = some path) (hc' : r'.HasConfig s)
    (hd' : r'.task.destination? = some path') (h : r'.Overlooks s path) :
    r'.HasConfig { s with store := (r.run s).store } ∧
      r'.written? { s with store := (r.run s).store } = r'.written? s := by
  have hstore := (run_eq_written hc hd).1
  cases hw : r.written? s with
  | none =>
    rw [hw] at hstore
    rw [hstore]
    exact ⟨hc', rfl⟩
  | some written =>
    obtain ⟨l, text⟩ := written
    rw [hw] at hstore
    obtain ⟨htarget, hl⟩ := Store.target_of_writable (writable_of_written hd hw)
    have havoids : s.store.Avoids (r'.lookups s) l := fun q hq hq' => h q hq ⟨l, htarget, hq'⟩
    rw [hstore]
    exact ⟨(hasConfig_after hl (ne_version_of_destination hd') havoids).mpr hc',
      written_after hl hc' hd' havoids⟩

section
variable {r₁ r₂ : Request} {p₁ p₂ : Path}

/-- Two requests that overlook what the other one writes may run in either order. -/
theorem run_commutes (hc₁ : r₁.HasConfig s) (hc₂ : r₂.HasConfig s)
    (hd₁ : r₁.task.destination? = some p₁) (hd₂ : r₂.task.destination? = some p₂)
    (hne : ¬ s.store.SamePlace p₁ p₂) (h₁ : r₁.Overlooks s p₂) (h₂ : r₂.Overlooks s p₁) :
    let o₁ := r₁.run s
    let o₂ := r₂.run s
    let o₁₂ := r₂.run { s with store := o₁.store }
    let o₂₁ := r₁.run { s with store := o₂.store }
    o₁₂.store.Same o₂₁.store ∧ o₂₁.failure.isSome = o₁.failure.isSome ∧
      o₁₂.failure.isSome = o₂.failure.isSome := by
  obtain ⟨hc₁₂, hw₁₂⟩ := written_after_run hc₁ hd₁ hc₂ hd₂ h₂
  obtain ⟨hc₂₁, hw₂₁⟩ := written_after_run hc₂ hd₂ hc₁ hd₁ h₁
  obtain ⟨hs₁, hf₁⟩ := run_eq_written hc₁ hd₁
  obtain ⟨hs₂, hf₂⟩ := run_eq_written hc₂ hd₂
  obtain ⟨hs₁₂, hf₁₂⟩ := run_eq_written hc₁₂ hd₂
  obtain ⟨hs₂₁, hf₂₁⟩ := run_eq_written hc₂₁ hd₁
  refine ⟨?_, by rw [hf₂₁, hf₁, hw₂₁], by rw [hf₁₂, hf₂, hw₁₂]⟩
  rw [hs₁₂, hs₂₁, hw₁₂, hw₂₁]
  simp only [hs₁, hs₂]
  cases hw₁ : r₁.written? s with
  | none => exact .refl _
  | some written₁ =>
    cases hw₂ : r₂.written? s with
    | none => exact .refl _
    | some written₂ =>
      obtain ⟨htarget₁, hl₁⟩ := Store.target_of_writable (writable_of_written hd₁ hw₁)
      obtain ⟨htarget₂, hl₂⟩ := Store.target_of_writable (writable_of_written hd₂ hw₂)
      refine Store.same_put_put (Store.ne_nil_of_not_isFolder hl₁)
        (Store.ne_nil_of_not_isFolder hl₂) ?_ _ _
      intro heq
      rw [← heq] at htarget₂
      exact hne ⟨written₁.1, htarget₁, htarget₂⟩

end

theorem store_of_no_destination (hc : r.HasConfig s) (hd : r.task.destination? = none) :
    (r.run s).store = s.store := by
  by_cases hv : r.task = .version
  · rw [run, if_pos hv]
  · rw [run_of_hasConfig hv hc]
    rcases hp : (r.product s).run [] with ⟨failure | p, notes⟩
    · rfl
    · have hpath := (path_of_returns_product ⟨[], by rw [hp]⟩).trans hd
      simp only [deliver_of_path_none hpath]

/-- A request that overlooks what it has written writes it again. -/
theorem run_again (hc : r.HasConfig s)
    (h : ∀ path, r.task.destination? = some path → r.Overlooks s path)
    (hsuccess : (r.run s).failure = none) :
    let again := r.run { s with store := (r.run s).store }
    again.store = (r.run s).store ∧ again.failure = none := by
  cases hd : r.task.destination? with
  | none =>
    simp only [store_of_no_destination hc hd]
    exact ⟨trivial, hsuccess⟩
  | some path =>
    obtain ⟨hc', hw'⟩ := written_after_run hc hd hc hd (h path hd)
    obtain ⟨hs, hf⟩ := run_eq_written hc hd
    obtain ⟨hs', hf'⟩ := run_eq_written hc' hd
    rw [hw'] at hs' hf'
    constructor
    · rw [hs', hs]
      cases r.written? s with
      | none => rfl
      | some written => exact Store.put_put _ _
    · rw [← hf, hsuccess] at hf'
      exact Option.isNone_iff_eq_none.mp (Option.isSome_eq_false_iff.mp hf')

/-- Requests that write files where none of them looks are independent: two of them leave the same
files in either order, and each fails or succeeds as it would before the other one. A request that
has succeeded changes nothing when it is repeated. -/
theorem run_independent (s : Surroundings) :
    (∀ (r₁ r₂ : Request) (p₁ p₂ : Path), r₁.HasConfig s → r₂.HasConfig s →
      r₁.task.destination? = some p₁ → r₂.task.destination? = some p₂ →
      ¬ s.store.SamePlace p₁ p₂ →
      (∀ p ∈ [p₁, p₂], r₁.Overlooks s p ∧ r₂.Overlooks s p) →
      let o₁ := r₁.run s
      let o₂ := r₂.run s
      let o₁₂ := r₂.run { s with store := o₁.store }
      let o₂₁ := r₁.run { s with store := o₂.store }
      o₁₂.store.Same o₂₁.store ∧ o₂₁.failure.isSome = o₁.failure.isSome ∧
        o₁₂.failure.isSome = o₂.failure.isSome) ∧
    ∀ r : Request, r.HasConfig s →
      (∀ p, r.task.destination? = some p → r.Overlooks s p) →
      (r.run s).failure = none →
      let again := r.run { s with store := (r.run s).store }
      again.store = (r.run s).store ∧ again.failure = none := by
  refine ⟨fun r₁ r₂ p₁ p₂ hc₁ hc₂ hd₁ hd₂ hne h => ?_, fun r => run_again⟩
  have h₁ : r₁.Overlooks s p₂ := (h p₂ (List.mem_cons_of_mem _ List.mem_cons_self)).1
  have h₂ : r₂.Overlooks s p₁ := (h p₁ List.mem_cons_self).2
  exact run_commutes hc₁ hc₂ hd₁ hd₂ hne h₁ h₂

theorem run_independent_html_and_index :
    let s : Surroundings :=
      { store := { entries := [(["home"], .folder), (["home", "config.toml"], .file "".toUTF8),
          (["2013-02-05"], .folder),
          (["2013-02-05", "irc.log"], .file "[1] <ann> topic: Budget".toUTF8)] }
        home := "/home", today := ⟨2013, 2, 5, by decide⟩ }
    let r₁ : Request := { task := .html "2013-02-05" true }
    let r₂ : Request := { task := .index "." }
    let o₁ := r₁.run s
    let o₂ := r₂.run s
    (o₁.failure = none ∧ o₂.failure = none ∧
      r₁.lookups s = ["/home/config.toml", "/home/people.json", "2013-02-05/irc.log",
        "2013-02-05/audio.ogg"]) ∧
    (r₂.run { s with store := o₁.store }).store.Same (r₁.run { s with store := o₂.store }).store ∧
    (r₁.run { s with store := o₁.store }).store = o₁.store := by
  intro s r₁ r₂ o₁ o₂
  have hsuccess₁ : o₁.failure = none := Option.isNone_iff_eq_none.mp (by decide +kernel)
  have hsuccess₂ : o₂.failure = none := Option.isNone_iff_eq_none.mp (by decide +kernel)
  have hc₁ : r₁.HasConfig s := by decide +kernel
  have hc₂ : r₂.HasConfig s := by decide +kernel
  have hne : ¬ s.store.SamePlace "2013-02-05/index.html" "./index.html" := by decide +kernel
  have h : ∀ p ∈ ["2013-02-05/index.html", "./index.html"],
      r₁.Overlooks s p ∧ r₂.Overlooks s p := by decide +kernel
  obtain ⟨hcommute, hagain⟩ := run_independent s
  obtain ⟨hsame, -, -⟩ := hcommute r₁ r₂ _ _ hc₁ hc₂ rfl rfl hne h
  have hrepeated := hagain r₁ hc₁ (fun p hp => by
    obtain rfl := Option.some.inj hp
    exact (h _ List.mem_cons_self).1) hsuccess₁
  exact ⟨⟨hsuccess₁, hsuccess₂, by decide +kernel⟩, hsame, hrepeated.1⟩

end Request
end Minutes.Command
