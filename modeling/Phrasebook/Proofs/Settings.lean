import Phrasebook.Settings.Load
import Mathlib.Data.List.DropRight

/-!
Settings hold in layers. Each is taken from the nearest local file if that gives it, else from the file
of the user, else it has its default; a number in the environment goes over the capacity. Only the
nearest local file can make loading fail. Walking up meets the directories above a start by length, so
the first file met is that of the deepest directory with one.
-/

namespace Phrasebook

/-! ## Walking up -/

namespace Path

/-- Every name of the path leads into the directory in which it is looked up. -/
def Proper (path : Path) : Prop := ∀ name ∈ path, isSame name = false ∧ name ≠ ".."

variable {path dir : Path} {name : String}

theorem Proper.upwards (h : path.Proper) :
    path.upwards = path :: (List.range path.length).reverse.map (path.take ·) := by
  have hkept : path.reverse.dropWhile isSame = path.reverse := by
    rw [List.dropWhile_eq_self_iff]
    intro hl
    exact ne_true_of_eq_false (h _ (List.mem_reverse.1 (List.getElem_mem hl))).1
  have hall : ∀ above ∈ (List.range path.length).reverse.map (path.take ·),
      above.getLast?.all (!isSame ·) = true := by
    intro above habove
    obtain ⟨i, -, rfl⟩ := List.mem_map.1 habove
    rw [Option.all_eq_true]
    intro name hname
    rw [(h name (List.mem_of_mem_take (List.mem_of_getLast? hname))).1, Bool.not_false]
  rw [Path.upwards, hkept, List.length_reverse, List.filter_eq_self.2 hall]

theorem upwards_nil : upwards [] = [[]] := rfl

theorem Proper.upwards_concat (h : Path.Proper (dir ++ [name])) :
    Path.upwards (dir ++ [name]) = (dir ++ [name]) :: dir.upwards := by
  have hdir : dir.Proper := fun n hn => h n (List.mem_append_left _ hn)
  rw [h.upwards, hdir.upwards, List.length_append, List.length_singleton, List.range_succ,
    List.reverse_concat, List.map_cons, List.take_left]
  congr 2
  apply List.map_congr_left
  intro i hi
  have hlt : i < dir.length := List.mem_range.1 (List.mem_reverse.1 hi)
  exact List.take_append_of_le_length hlt.le

end Path

/-- What a walk arrives at has proper names only. -/
theorem FileTree.walk?_proper {tree : FileTree} {done : List String} {path dir : Path}
    (h : tree.walk? done path = some (.inside dir)) (hdone : Path.Proper done) : dir.Proper := by
  induction path generalizing done with
  | nil =>
    cases h
    exact fun name hname => hdone name (List.mem_reverse.1 hname)
  | cons name path ih =>
    unfold walk? at h
    dsimp only at h
    split at h
    · cases h
    · split at h
      · exact ih h hdone
      · rename_i hsame
        split at h
        · cases done with
          | nil =>
            dsimp only at h
            split at h <;> cases h
          | cons last done => exact ih h (List.forall_mem_cons.1 hdone).2
        · rename_i hup
          split at h
          · apply ih h
            exact List.forall_mem_cons.2 ⟨⟨Bool.eq_false_iff.2 hsame, hup⟩, hdone⟩
          · cases h

/-! ## The nearest file -/

variable {tree : FileTree} {files : SettingsFiles} {dir file start : Path} {place : Place}

/-- The file with settings of a directory: the plain one, or the nested one where there is no plain
one. -/
def SettingsIn (tree : FileTree) (files : SettingsFiles) (dir file : Path) : Prop :=
  tree.isFile (dir ++ [files.plain]) = true ∧ file = dir ++ [files.plain] ∨
  tree.isFile (dir ++ [files.plain]) = false ∧
    tree.isFile (dir ++ [files.folder, files.nested]) = true ∧ file = dir ++ [files.folder, files.nested]

/-- The file with settings of the deepest directory, from `dir` upwards, that has one. -/
def NearestFrom (tree : FileTree) (files : SettingsFiles) (dir file : Path) : Prop :=
  ∃ above, above <+: dir ∧ SettingsIn tree files above file ∧
    ∀ deeper, deeper <+: dir → above.length < deeper.length → ∀ other, ¬ SettingsIn tree files deeper other

/-- The nearest local file of a place; nothing is known of what is above the root. -/
def IsNearest (tree : FileTree) (files : SettingsFiles) : (place : Place) → (file : Path) → Prop
  | .inside dir, file => NearestFrom tree files dir file
  | .above, _ => False

namespace Settings

theorem fileIn?_eq_some_iff : fileIn? tree files dir = some file ↔ SettingsIn tree files dir file := by
  unfold fileIn? SettingsIn
  dsimp only
  split_ifs with hplain hnested
  · rw [Option.some_inj, eq_comm]
    simp [hplain]
  · rw [Option.some_inj, eq_comm]
    simp [hplain, hnested]
  · simp [hplain, hnested]

theorem fileIn?_eq_none_iff :
    fileIn? tree files dir = none ↔ ∀ file, ¬ SettingsIn tree files dir file := by
  rw [Option.eq_none_iff_forall_ne_some]
  exact forall_congr' fun file => not_congr fileIn?_eq_some_iff

theorem nearestFile?_nil : nearestFile? tree files [] = fileIn? tree files [] := by
  simp [nearestFile?, Path.upwards_nil]

theorem nearestFile?_concat {name : String} (h : Path.Proper (dir ++ [name])) :
    nearestFile? tree files (dir ++ [name]) =
      (fileIn? tree files (dir ++ [name])).or (nearestFile? tree files dir) := by
  rw [nearestFile?, h.upwards_concat, List.findSome?_cons]
  cases fileIn? tree files (dir ++ [name]) <;> rfl

end Settings

theorem nearestFrom_nil : NearestFrom tree files [] file ↔ SettingsIn tree files [] file := by
  constructor
  · rintro ⟨above, habove, hfile, -⟩
    rwa [List.prefix_nil.1 habove] at hfile
  · intro hfile
    refine ⟨[], List.prefix_rfl, hfile, fun deeper hdeeper hlt => ?_⟩
    rw [List.prefix_nil.1 hdeeper] at hlt
    exact absurd hlt (Nat.lt_irrefl _)

/-- The nearest file from a directory is its own, or that from the one above where it has none. -/
theorem nearestFrom_concat {name : String} :
    NearestFrom tree files (dir ++ [name]) file ↔
      SettingsIn tree files (dir ++ [name]) file ∨
        (∀ own, ¬ SettingsIn tree files (dir ++ [name]) own) ∧ NearestFrom tree files dir file := by
  constructor
  · rintro ⟨above, habove, hfile, hdeepest⟩
    rcases List.prefix_concat_iff.1 habove with rfl | habove
    · exact .inl hfile
    · refine .inr ⟨hdeepest _ List.prefix_rfl ?_, above, habove, hfile, fun deeper hdeeper => ?_⟩
      · rw [List.length_append, List.length_singleton]
        exact Nat.lt_succ_of_le habove.length_le
      · exact hdeepest deeper (hdeeper.trans (List.prefix_append _ _))
  · rintro (hfile | ⟨hnone, above, habove, hfile, hdeepest⟩)
    · refine ⟨_, List.prefix_rfl, hfile, fun deeper hdeeper hlt => ?_⟩
      exact absurd hdeeper.length_le (Nat.not_le_of_lt hlt)
    · refine ⟨above, habove.trans (List.prefix_append _ _), hfile, fun deeper hdeeper hlt => ?_⟩
      rcases List.prefix_concat_iff.1 hdeeper with rfl | hdeeper
      · exact hnone
      · exact hdeepest deeper hdeeper hlt

theorem Settings.nearestFile?_eq_some_iff (h : Path.Proper dir) :
    nearestFile? tree files dir = some file ↔ NearestFrom tree files dir file := by
  -- the directory above is the path without its last name
  induction dir using List.reverseRecOn with
  | nil => rw [nearestFile?_nil, fileIn?_eq_some_iff, nearestFrom_nil]
  | append_singleton dir name ih =>
    have hdir : Path.Proper dir := fun n hn => h n (List.mem_append_left _ hn)
    rw [nearestFile?_concat h, Option.or_eq_some_iff, fileIn?_eq_some_iff, fileIn?_eq_none_iff, ih hdir,
      nearestFrom_concat]

theorem Settings.localFile?_eq_some_iff (h : tree.resolve? start = some place) :
    localFile? tree files start = some file ↔ IsNearest tree files place file := by
  rw [localFile?, h]
  cases place with
  | inside dir => exact nearestFile?_eq_some_iff (FileTree.walk?_proper h fun _ hname => nomatch hname)
  | above => simp [IsNearest]

/-! ## The environment -/

/-- A value that is a number in digits, a plus sign and blanks around it aside, and fits 64 bits. -/
def Gives (value : String) (n : Nat) : Prop :=
  ∃ digits : Text, digits ≠ [] ∧ (∀ c ∈ digits, c.isDigit = true) ∧
    (Text.trim value.toList = digits ∨ Text.trim value.toList = '+' :: digits) ∧
    Nat.ofDigitChars 10 digits 0 = n ∧ n < UInt64.size

namespace Settings

theorem count64?_eq_some_iff {digits : Text} {n : Nat} :
    count64? digits = some n ↔
      digits ≠ [] ∧ (∀ c ∈ digits, c.isDigit = true) ∧ Nat.ofDigitChars 10 digits 0 = n ∧
        n < UInt64.size := by
  have hbad : (digits.isEmpty || !digits.all Char.isDigit) = true ↔
      ¬ (digits ≠ [] ∧ ∀ c ∈ digits, c.isDigit = true) := by
    rw [not_and_or, not_not, Bool.or_eq_true, List.isEmpty_iff, ← List.all_eq_true, Bool.not_eq_true',
      Bool.not_eq_true]
  rw [← and_assoc, count64?]
  by_cases hrow : digits ≠ [] ∧ ∀ c ∈ digits, c.isDigit = true
  · rw [if_neg (mt hbad.1 (not_not.2 hrow))]
    change (if Nat.ofDigitChars 10 digits 0 < UInt64.size then some (Nat.ofDigitChars 10 digits 0)
      else none) = some n ↔ _
    rw [Option.ite_none_right_eq_some, Option.some_inj]
    constructor
    · rintro ⟨hfits, rfl⟩
      exact ⟨hrow, rfl, hfits⟩
    · rintro ⟨-, rfl, hfits⟩
      exact ⟨hfits, rfl⟩
  · rw [if_pos (hbad.2 hrow)]
    exact iff_of_false nofun fun h => hrow h.1

/-- A text of digits has no plus sign to take away. -/
theorem withoutPlus_eq_iff {t digits : Text} (hne : digits ≠ [])
    (hdigits : ∀ c ∈ digits, c.isDigit = true) :
    withoutPlus t = digits ↔ t = digits ∨ t = '+' :: digits := by
  unfold withoutPlus
  split
  · rename_i rest
    have hplus : '+' :: rest ≠ digits := by
      rintro rfl
      exact absurd (hdigits '+' List.mem_cons_self) (by decide)
    simp [hplus]
  · rename_i hplain
    have hsigned : t ≠ '+' :: digits := fun h => hplain digits h
    simp [hsigned]

theorem environmentCapacity?_eq_some_iff {value : String} {n : Nat} :
    environmentCapacity? value = some n ↔ Gives value n := by
  rw [environmentCapacity?, count64?_eq_some_iff]
  constructor
  · rintro ⟨hne, hdigits, hn, hfits⟩
    exact ⟨_, hne, hdigits, (withoutPlus_eq_iff hne hdigits).1 rfl, hn, hfits⟩
  · rintro ⟨digits, hne, hdigits, hvalue, hn, hfits⟩
    obtain rfl := (withoutPlus_eq_iff hne hdigits).2 hvalue
    exact ⟨hne, hdigits, hn, hfits⟩

end Settings

/-! ## Layers -/

/-- What the upper of two layers gives, else the lower one. -/
def given {α : Type} (upper lower : Option SettingsLayer) (field : SettingsLayer → Option α) : Option α :=
  (upper.bind field).or (lower.bind field)

/-- Each setting is from the highest layer that gives it, the nearest file or that of the user, else the
default; for the capacity the environment is the highest. -/
structure Layered (near user : Option SettingsLayer) (environment : Option String) (s : Settings) :
    Prop where
  logUnresolved : s.logUnresolved = (given near user (·.logUnresolved)).getD true
  parallelLines : s.parallelLines = (given near user (·.parallelLines)).getD 0
  recentCapacity : ∀ value n, environment = some value → Gives value n → s.recentCapacity = n
  recentCapacity_of_not : (∀ value n, environment = some value → ¬ Gives value n) →
    s.recentCapacity = (given near user (·.recentCapacity)).getD 0

variable {near user : Option SettingsLayer} {environment : Option String} {s : Settings}

namespace Settings

/-- Settings with a layer put over them, if there is one. -/
def under (s : Settings) (layer : Option SettingsLayer) : Settings := layer.elim s (·.apply s)

/-- The layers put over the defaults one after the other. -/
def ofLayers (near user : Option SettingsLayer) (environment : Option String) : Settings :=
  ((under {} user).under near).withEnvironment environment

theorem under_under (near user : Option SettingsLayer) : (under {} user).under near = {
    logUnresolved := (given near user (·.logUnresolved)).getD true
    recentCapacity := (given near user (·.recentCapacity)).getD 0
    parallelLines := (given near user (·.parallelLines)).getD 0 } := by
  cases user with
  | none =>
    cases near with
    | none => rfl
    | some l => simp [under, SettingsLayer.apply, given]
  | some u =>
    cases near with
    | none => simp [under, SettingsLayer.apply, given]
    | some l => simp [under, SettingsLayer.apply, given, Option.getD_or]

theorem layered_iff : Layered near user environment s ↔ s = ofLayers near user environment := by
  rw [ofLayers, under_under, withEnvironment]
  cases henvironment : environment.bind environmentCapacity? with
  | none =>
    have hnot (value : String) (n : Nat) (hvalue : environment = some value) : ¬ Gives value n := by
      rw [hvalue, Option.bind_some] at henvironment
      rw [← environmentCapacity?_eq_some_iff, henvironment]
      exact nofun
    constructor
    · intro h
      cases s
      exact congr (congrArg₂ Settings.mk h.logUnresolved (h.recentCapacity_of_not hnot)) h.parallelLines
    · rintro rfl
      exact ⟨rfl, rfl, fun value n hvalue hn => absurd hn (hnot value n hvalue), fun _ => rfl⟩
  | some n =>
    obtain ⟨value, rfl, hn⟩ := Option.bind_eq_some_iff.1 henvironment
    constructor
    · intro h
      cases s
      have hcapacity := h.recentCapacity value n rfl (environmentCapacity?_eq_some_iff.1 hn)
      exact congr (congrArg₂ Settings.mk h.logUnresolved hcapacity) h.parallelLines
    · rintro rfl
      refine ⟨rfl, rfl, fun value' m hvalue hm => ?_, fun hnot => ?_⟩
      · cases hvalue
        rw [← environmentCapacity?_eq_some_iff, hn] at hm
        exact Option.some.inj hm
      · exact absurd (environmentCapacity?_eq_some_iff.1 hn) (hnot value n rfl)

end Settings

/-! ## Loading -/

namespace SettingsFormat

variable {format : SettingsFormat} {home : Path} {l : SettingsLayer} {e : SettingsError}

def layer? (format : SettingsFormat) (tree : FileTree) (file : Path) : Option SettingsLayer :=
  (tree.readText? file).bind format

/-- Why a file gives no layer. -/
def Refuses (format : SettingsFormat) (tree : FileTree) (file : Path) (e : SettingsError) : Prop :=
  tree.readText? file = none ∧ e = .unreadable file ∨
  (∃ t, tree.readText? file = some t ∧ format t = none) ∧ e = .malformedFile file

/-- The layer of the nearest local file, which must give one; none where there is no such file. -/
def NearestLayer (format : SettingsFormat) (tree : FileTree) (files : SettingsFiles) (place : Place)
    (near : Option SettingsLayer) : Prop :=
  (∀ file, ¬ IsNearest tree files place file) ∧ near = none ∨
  ∃ file l, IsNearest tree files place file ∧ format.layer? tree file = some l ∧ near = some l

theorem layer_or_refuses (format : SettingsFormat) (tree : FileTree) (file : Path) :
    (∃ l, format.layer? tree file = some l) ∨ ∃ e, format.Refuses tree file e := by
  cases htext : tree.readText? file with
  | none => exact .inr ⟨_, .inl ⟨htext, rfl⟩⟩
  | some t =>
    cases hlayer : format t with
    | none => exact .inr ⟨_, .inr ⟨⟨t, htext, hlayer⟩, rfl⟩⟩
    | some l =>
      refine .inl ⟨l, ?_⟩
      rw [layer?, htext, Option.bind_some, hlayer]

theorem ofUser_eq : format.ofUser tree files home =
    Settings.under {} (format.layer? tree (home ++ [files.user])) := by
  rw [ofUser, ofFile, layer?]
  cases tree.readText? (home ++ [files.user]) with
  | none => rfl
  | some t =>
    dsimp only [Option.bind_some]
    rw [ofText]
    cases format t <;> rfl

theorem load_of_none (h : Settings.localFile? tree files start = none) :
    format.load tree files home environment start =
      .ok (Settings.ofLayers none (format.layer? tree (home ++ [files.user])) environment) := by
  rw [load, h, ofUser_eq]
  rfl

theorem load_of_layer (h : Settings.localFile? tree files start = some file)
    (hl : format.layer? tree file = some l) :
    format.load tree files home environment start =
      .ok (Settings.ofLayers (some l) (format.layer? tree (home ++ [files.user])) environment) := by
  obtain ⟨t, ht, hformat⟩ := Option.bind_eq_some_iff.1 hl
  rw [load, h, ofUser_eq]
  dsimp only
  rw [ht]
  dsimp only
  rw [hformat]
  rfl

theorem load_of_refuses (h : Settings.localFile? tree files start = some file)
    (he : format.Refuses tree file e) : format.load tree files home environment start = .error e := by
  rw [load, h]
  dsimp only
  obtain ⟨ht, rfl⟩ | ⟨⟨t, ht, hformat⟩, rfl⟩ := he
  · rw [ht]
    rfl
  · rw [ht]
    dsimp only
    rw [hformat]
    rfl

/-- Loading gives the settings of the layers or fails on the nearest local file. -/
theorem load_cases (format : SettingsFormat) (files : SettingsFiles) (home : Path)
    (environment : Option String) (hstart : tree.resolve? start = some place) :
    (∃ near, format.NearestLayer tree files place near ∧
      format.load tree files home environment start =
        .ok (Settings.ofLayers near (format.layer? tree (home ++ [files.user])) environment)) ∨
    ∃ file e, IsNearest tree files place file ∧ format.Refuses tree file e ∧
      format.load tree files home environment start = .error e := by
  cases hlocal : Settings.localFile? tree files start with
  | none =>
    refine .inl ⟨none, .inl ⟨fun file hfile => ?_, rfl⟩, load_of_none hlocal⟩
    rw [← Settings.localFile?_eq_some_iff hstart, hlocal] at hfile
    cases hfile
  | some file =>
    have hfile := (Settings.localFile?_eq_some_iff hstart).1 hlocal
    obtain ⟨l, hl⟩ | ⟨e, he⟩ := layer_or_refuses format tree file
    · exact .inl ⟨some l, .inr ⟨file, l, hfile, hl, rfl⟩, load_of_layer hlocal hl⟩
    · exact .inr ⟨file, e, hfile, he, load_of_refuses hlocal he⟩

/-- Loading fails just when the nearest local file gives no layer, and says why. Otherwise it gives the
settings of the layers. -/
theorem load_layered (format : SettingsFormat) (files : SettingsFiles) (home : Path)
    (environment : Option String) (hstart : tree.resolve? start = some place) :
    (∀ e, format.load tree files home environment start = .error e ↔
      ∃ file, IsNearest tree files place file ∧ format.Refuses tree file e) ∧
    ∀ s, format.load tree files home environment start = .ok s ↔
      ∃ near, format.NearestLayer tree files place near ∧
        Layered near (format.layer? tree (home ++ [files.user])) environment s := by
  have hcases := load_cases format files home environment hstart
  refine ⟨fun e => ⟨fun h => ?_, ?_⟩, fun s => ⟨fun h => ?_, ?_⟩⟩
  · obtain ⟨near, -, hload⟩ | ⟨file, e', hfile, he, hload⟩ := hcases
    · rw [hload] at h
      cases h
    · rw [hload] at h
      cases h
      exact ⟨file, hfile, he⟩
  · rintro ⟨file, hfile, he⟩
    exact load_of_refuses ((Settings.localFile?_eq_some_iff hstart).2 hfile) he
  · obtain ⟨near, hnear, hload⟩ | ⟨file, e, -, -, hload⟩ := hcases
    · rw [hload] at h
      cases h
      exact ⟨near, hnear, Settings.layered_iff.2 rfl⟩
    · rw [hload] at h
      cases h
  · rintro ⟨near, ⟨hno, rfl⟩ | ⟨file, l, hfile, hl, rfl⟩, hs⟩
    · rw [Settings.layered_iff.1 hs]
      apply load_of_none
      apply Option.eq_none_iff_forall_ne_some.2
      exact fun file h => hno file ((Settings.localFile?_eq_some_iff hstart).1 h)
    · rw [Settings.layered_iff.1 hs]
      exact load_of_layer ((Settings.localFile?_eq_some_iff hstart).2 hfile) hl

/-- The user has a file, and above the notes there is another in a folder. -/
def notes : FileTree where
  nodes := [
    (["home", ".skriptlet.toml"], .file "mru_capacity = 7\nmax_parallel_threads = 2".toUTF8),
    (["work", ".skriptlet", "config.toml"], .file "log_unresolved = false".toUTF8),
    (["work", "notes"], .directory)]

theorem load_layered_notes :
    notes.resolve? ["work", "notes"] = some (.inside ["work", "notes"]) ∧
      ∃ near, toml.NearestLayer notes (.ofName "skriptlet") (.inside ["work", "notes"]) near ∧
        Layered near (toml.layer? notes (["home"] ++ [".skriptlet.toml"])) (some " +9 ")
          { logUnresolved := false, recentCapacity := 9, parallelLines := 2 } := by
  have hplace : notes.resolve? ["work", "notes"] = some (.inside ["work", "notes"]) := by
    decide +kernel
  have hload : toml.load notes (.ofName "skriptlet") ["home"] (some " +9 ") ["work", "notes"] =
      .ok { logUnresolved := false, recentCapacity := 9, parallelLines := 2 } := by
    decide +kernel
  obtain ⟨-, hok⟩ := load_layered toml (.ofName "skriptlet") ["home"] (some " +9 ") hplace
  exact ⟨hplace, (hok _).1 hload⟩

end SettingsFormat

end Phrasebook
