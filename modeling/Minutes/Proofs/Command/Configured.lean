import Minutes.Proofs.Command.Changes

/-!
Runs whose configuration exists, and the two ways to the user's own configuration: it is used if
none is named, and it can be named. Both ways read the same file, but the roster that it names is
followed from the folder where the program runs in the one case, from the folder of the file in the
other.
-/
namespace Minutes.Command
open Files Noted

theorem read_of_returns_readConfig {store : Store} {path : Path} {config : Config}
    (h : (readConfig store path).Returns config) :
    ∃ text, store.read path = .ok text ∧ Config.read? text = some config := by
  obtain ⟨text, htext, h⟩ := returns_bind h
  refine ⟨text, returns_orFail htext, ?_⟩
  cases hread : Config.read? text with
  | none =>
    rw [hread] at h
    exact absurd h not_returns_throw
  | some config' =>
    rw [hread] at h
    obtain ⟨-, -, h⟩ := returns_bind h
    rw [returns_pure h]

namespace Request

/-- The file that the configuration of a request stands in. -/
def configPath (r : Request) (s : Surroundings) : Path := r.config.getD s.configPath

def HasConfig (r : Request) (s : Surroundings) : Prop := s.store.exists? (r.configPath s) = true

instance (r : Request) (s : Surroundings) : Decidable (r.HasConfig s) :=
  inferInstanceAs (Decidable (_ = true))

/-- The product of a request whose configuration exists. -/
def product (r : Request) (s : Surroundings) : Noted Product := do
  let config ← readConfig s.store (r.configPath s)
  r.reading s config s.store

variable {r : Request} {s : Surroundings}

theorem findConfig_of_hasConfig (h : r.HasConfig s) :
    findConfig s r.config = (·, s.store) <$> readConfig s.store (r.configPath s) := by
  unfold HasConfig configPath at h
  unfold configPath
  cases hc : r.config with
  | some path =>
    rw [hc] at h
    exact congrArg ((·, s.store) <$> ·) (if_pos h)
  | none =>
    rw [hc] at h
    simp only [Option.getD_none] at h ⊢
    rw [findConfig, ownConfig, if_pos h, map_eq_pure_bind]

/-- A run with a configuration delivers its product, or fails as the product does. -/
theorem run_of_hasConfig (hv : r.task ≠ .version) (hc : r.HasConfig s) :
    r.run s =
      match (r.product s).run [] with
      | (.error failure, notes) => { store := s.store, notes, failure := some failure }
      | (.ok p, notes) => p.deliver s.store notes := by
  have hfind := congrArg (Noted.run · []) (findConfig_of_hasConfig hc)
  simp only [run_map] at hfind
  rw [run, if_neg hv, product, run_bind]
  rcases hconfig : (readConfig s.store (r.configPath s)).run [] with ⟨failure | config, notes⟩
  · rw [hconfig] at hfind
    exact work_of_config_failure hfind
  · rw [hconfig] at hfind
    simp only
    rcases hp : (r.reading s config s.store).run notes with ⟨failure | p, notes'⟩
    · exact work_of_failure hfind hp
    · exact work_of_product hfind hp

theorem path_of_returns_product {p : Product} (h : (r.product s).Returns p) :
    p.path = r.task.destination? := by
  obtain ⟨config, -, hreading⟩ := returns_bind h
  exact path_of_returns_reading hreading

/-- The request with the user's own configuration named for it. -/
def named (r : Request) (s : Surroundings) : Request := { r with config := some s.configPath }

/-- Two requests for a task that read one configuration, and find the roster that it tells in the
same place, have the same outcome. -/
theorem run_congr {r' : Request} (ht : r.task = r'.task) (hc : r.HasConfig s)
    (hpath : r.configPath s = r'.configPath s)
    (h : ∀ config, (readConfig s.store (r.configPath s)).Returns config →
      config.rosterPath s.home r.config = config.rosterPath s.home r'.config) :
    r.run s = r'.run s := by
  have hc' : r'.HasConfig s := by
    unfold HasConfig at hc ⊢
    rwa [← hpath]
  by_cases hv : r.task = .version
  · rw [run, run, if_pos hv, if_pos (ht ▸ hv)]
  · have hproduct : (r.product s).run [] = (r'.product s).run [] := by
      rw [product, product, run_bind, run_bind, ← hpath]
      rcases hconfig : (readConfig s.store (r.configPath s)).run [] with ⟨failure | config, notes⟩
      · rfl
      · have hroster := h config ⟨[], by rw [hconfig]⟩
        simp only [reading, Workplace.load, hroster, ht]
    rw [run_of_hasConfig hv hc, run_of_hasConfig (ht ▸ hv) hc', hproduct]

section
variable {base : Path} (hhome : s.home = base.join programName)
include hhome

theorem parent?_configPath : s.configPath.parent? = some s.home := by
  rw [Surroundings.configPath, hhome]
  exact Path.parent?_join_join (by decide) (by decide)

theorem rosterPath_named (config : Config) :
    config.rosterPath s.home (some s.configPath) =
      s.home.join (config.roster.getD defaultRosterName) := by
  simp only [Config.rosterPath, Option.bind_some, parent?_configPath hhome, Option.getD_some]
  cases config.roster <;> rfl

/-- The user's own configuration is the same whether it is named or not, and so is a run unless the
configuration has a relative path of the roster. That path leads from the folder where the program
runs if the configuration is not named, and from the folder of the configuration if it is. -/
theorem run_own_config (hown : s.store.exists? s.configPath = true) (hr : r.config = none) :
    findConfig s (r.named s).config = findConfig s r.config ∧
      (∀ config : Config,
        config.rosterPath s.home r.config =
            config.roster.getD (s.home.join defaultRosterName) ∧
          config.rosterPath s.home (r.named s).config =
            s.home.join (config.roster.getD defaultRosterName)) ∧
      ((∀ config, (readConfig s.store s.configPath).Returns config →
          ∀ path, config.roster = some path → path.isAbsolute = true) →
        (r.named s).run s = r.run s) := by
  have hpath : r.configPath s = s.configPath := by rw [configPath, hr, Option.getD_none]
  have hc : r.HasConfig s := by rwa [HasConfig, hpath]
  have hc' : (r.named s).HasConfig s := hown
  have hunnamed (config : Config) :
      config.rosterPath s.home r.config = config.roster.getD (s.home.join defaultRosterName) := by
    rw [hr, Config.rosterPath]
    cases config.roster with
    | none => rfl
    | some path => exact Path.empty_join path
  refine ⟨?_, fun config => ⟨hunnamed config, rosterPath_named hhome config⟩, fun h => ?_⟩
  · rw [findConfig_of_hasConfig hc, findConfig_of_hasConfig hc', hpath]
    rfl
  · refine run_congr rfl hc' hpath.symm fun config hconfig => ?_
    rw [hunnamed config]
    refine (rosterPath_named hhome config).trans ?_
    cases hroster : config.roster with
    | none => rfl
    | some path => exact Path.join_of_isAbsolute (h config hconfig path hroster) s.home

end

theorem run_own_config_absolute_roster :
    let s : Surroundings :=
      { store := { entries := [(["xdg"], .folder), (["xdg", "scrawl"], .folder),
          (["xdg", "scrawl", "config.toml"], .file "meeting.roster_path = '/team.json'".toUTF8),
          (["team.json"], .file "\x7b\"Ann Lee\": \x7b\x7d\x7d".toUTF8),
          (["2013-02-05"], .folder),
          (["2013-02-05", "irc.log"], .file "[12:00] <ann> hello".toUTF8)] }
        home := "/xdg/scrawl", today := ⟨2013, 2, 5, by decide⟩ }
    let r : Request := { task := .text "2013-02-05" none }
    (s.store.exists? s.configPath = true ∧ (r.run s).failure = none) ∧
      (r.named s).run s = r.run s := by
  intro s r
  have hown : s.store.exists? s.configPath = true := by decide +kernel
  have hsuccess : (r.run s).failure = none := Option.isNone_iff_eq_none.mp (by decide +kernel)
  refine ⟨⟨hown, hsuccess⟩, ?_⟩
  have hhome : s.home = Path.join "/xdg" programName := by decide
  have hunnamed : r.config = none := rfl
  refine (run_own_config hhome hown hunnamed).2.2 fun config hconfig path hpath => ?_
  obtain ⟨text, htext, hread⟩ := read_of_returns_readConfig hconfig
  have hroster : ((s.store.read s.configPath).toOption.bind Config.read?).bind (·.roster) =
      some "/team.json" := by decide +kernel
  rw [htext] at hroster
  simp only [Except.toOption, Option.bind_some, hread, hpath] at hroster
  rw [Option.some.inj hroster]
  decide

/-- The roster that the user's own configuration names by a relative path is not found if the
configuration is not named, although it stands in the folder of the configuration. -/
theorem run_own_config_relative_roster :
    let s : Surroundings :=
      { store := { entries := [(["xdg"], .folder), (["xdg", "scrawl"], .folder),
          (["xdg", "scrawl", "config.toml"],
            .file "[meeting]\nroster_path = \"team.json\"\n".toUTF8),
          (["xdg", "scrawl", "team.json"], .file "\x7b\"Ann Lee\": \x7b\x7d\x7d".toUTF8),
          (["2013-02-05"], .folder),
          (["2013-02-05", "irc.log"], .file "[12:00] <ann> hello\n".toUTF8)] }
        home := "/xdg/scrawl", today := ⟨2013, 2, 5, by decide⟩ }
    let r : Request := { task := .text "2013-02-05" none }
    s.store.exists? s.configPath = true ∧ (r.run s).failure ≠ none ∧
      ((r.named s).run s).failure = none ∧ ((r.named s).run s).printed ≠ (r.run s).printed := by
  intro s r
  have hown : s.store.exists? s.configPath = true := by decide +kernel
  have hfailure : (r.run s).failure ≠ none := by
    have : (r.run s).failure.isSome = true := by decide +kernel
    exact Option.isSome_iff_ne_none.mp this
  have hsuccess : ((r.named s).run s).failure = none :=
    Option.isNone_iff_eq_none.mp (by decide +kernel)
  exact ⟨hown, hfailure, hsuccess, by decide +kernel⟩

end Request
end Minutes.Command
