import DocGraph.Proofs.Text.Pieces
import DocGraph.Resolution.CommonPath

/-! The directory that paths share.

    The heads that all lists share are the heads of `sharedHeads` (`prefix_sharedHeads_iff`); so it is
    the longest of them, and depends on which lists there are, but not on how often or in which order.
    A directory stands at the head of its path, with a slash behind it, unless it is made of slashes
    (`directory_cases`). `commonDirectory_shared` puts the two together. -/

namespace DocGraph.CommonPath

/-! ### Shared heads -/

/-- The longest head that all lists share. -/
structure LongestShared (lists : List (List String)) (shared : List String) : Prop where
  head : ∀ names ∈ lists, shared <+: names
  longest : ∀ other, (∀ names ∈ lists, other <+: names) → other <+: shared

theorem prefix_sharedHead_iff (head : List String) : ∀ names others : List String,
    head <+: sharedHead names others ↔ head <+: names ∧ head <+: others
  | [], others => by
    have hnone : sharedHead [] others = [] := by simp [sharedHead]
    rw [hnone]
    exact ⟨fun h => ⟨h, h.trans List.nil_prefix⟩, fun h => h.1⟩
  | name :: names, [] => by
    have hnone : sharedHead (name :: names) [] = [] := by simp [sharedHead]
    rw [hnone]
    exact ⟨fun h => ⟨h.trans List.nil_prefix, h⟩, fun h => h.2⟩
  | name :: names, other :: others => by
    cases head with
    | nil => simp
    | cons first rest =>
      have ih := prefix_sharedHead_iff rest names others
      rw [sharedHead, List.cons_prefix_cons, List.cons_prefix_cons]
      by_cases hsame : name = other
      · rw [if_pos hsame, List.cons_prefix_cons, ih, ← hsame]
        tauto
      · rw [if_neg hsame, List.prefix_nil]
        constructor
        · intro h
          cases h
        · rintro ⟨⟨rfl, -⟩, rfl, -⟩
          exact absurd rfl hsame

theorem prefix_foldl_sharedHead_iff (head : List String) :
    ∀ (more : List (List String)) (names : List String),
      head <+: more.foldl sharedHead names ↔ head <+: names ∧ ∀ others ∈ more, head <+: others
  | [], names => by simp
  | others :: more, names => by
    rw [List.foldl_cons, prefix_foldl_sharedHead_iff head more, prefix_sharedHead_iff, and_assoc,
      List.forall_mem_cons]

/-- A list is a head of what all lists share exactly if it is a head of each. -/
theorem prefix_sharedHeads_iff {lists : List (List String)} (hne : lists ≠ []) (head : List String) :
    head <+: sharedHeads lists ↔ ∀ names ∈ lists, head <+: names := by
  obtain ⟨names, more, rfl⟩ := List.exists_cons_of_ne_nil hne
  rw [sharedHeads, prefix_foldl_sharedHead_iff, List.forall_mem_cons]

theorem longestShared_sharedHeads {lists : List (List String)} (hne : lists ≠ []) :
    LongestShared lists (sharedHeads lists) :=
  ⟨(prefix_sharedHeads_iff hne _).mp (List.prefix_refl _),
    fun other => (prefix_sharedHeads_iff hne other).mpr⟩

theorem LongestShared.unique {lists : List (List String)} {shared shared' : List String}
    (h : LongestShared lists shared) (h' : LongestShared lists shared') : shared' = shared :=
  (h.longest _ h'.head).eq_of_length_le (h'.longest _ h.head).length_le

/-- Lists in another order, or more than once, share the same. -/
theorem LongestShared.congr {lists others : List (List String)} {shared : List String}
    (h : LongestShared lists shared) (hsame : ∀ names, names ∈ others ↔ names ∈ lists) :
    LongestShared others shared :=
  ⟨fun names hmem => h.head names ((hsame names).mp hmem),
    fun other hother => h.longest other fun names hmem => hother names ((hsame names).mpr hmem)⟩

/-! ### Directories -/

/-- What stands before the last part of a path, the slashes between them included. -/
theorem exists_path_eq (path : String) :
    ∃ head base : List Char, path.toList.reverse.dropWhile (· != '/') = head ∧
      path.toList = head.reverse ++ base ∧ ∀ c ∈ head.head?, c = '/' := by
  refine ⟨_, (path.toList.reverse.takeWhile (· != '/')).reverse, rfl, ?_, fun c hc => ?_⟩
  · rw [← List.reverse_append, List.takeWhile_append_dropWhile, List.reverse_reverse]
  · have hstop := List.head?_dropWhile_not (· != '/') path.toList.reverse
    rw [Option.mem_def.mp hc] at hstop
    simpa using hstop

/-- A directory is made of slashes, or stands at the head of its path with a slash behind it. -/
theorem directory_cases (path : String) :
    (∀ c ∈ (directory path).toList, c = '/') ∨
      (directory path).toList ++ ['/'] <+: path.toList := by
  obtain ⟨head, base, hhead, hpath, hfirst⟩ := exists_path_eq path
  have hcut : head.takeWhile (· == '/') ++ head.dropWhile (· == '/') = head :=
    List.takeWhile_append_dropWhile
  have hslashes : ∀ c ∈ head.takeWhile (· == '/'), c = '/' := fun c hc => by
    simpa using List.mem_takeWhile_imp hc
  cases hrest : head.dropWhile (· == '/') with
  | nil =>
    left
    intro c hc
    rw [hrest, List.append_nil] at hcut
    simp only [directory, hhead, hrest, String.toList_ofList, List.mem_reverse] at hc
    exact hslashes c (by rwa [hcut])
  | cons c rest =>
    right
    -- the slashes between the directory and the last part of the path; there is at least one
    cases hbetween : (head.takeWhile (· == '/')).reverse with
    | nil =>
      rw [List.reverse_eq_nil_iff] at hbetween
      rw [hbetween, List.nil_append, hrest] at hcut
      have hc : c = '/' := hfirst c (by rw [← hcut]; rfl)
      have hstop := List.head?_dropWhile_not (· == '/') head
      rw [hrest] at hstop
      simp [hc] at hstop
    | cons d more =>
      have hd : d = '/' := hslashes d (List.mem_reverse.mp (hbetween ▸ List.mem_cons_self))
      refine ⟨more ++ base, ?_⟩
      simp only [directory, hhead, hrest, String.toList_ofList]
      rw [hpath, ← hcut, List.reverse_append, hbetween, hrest, hd]
      simp

/-- Slashes alone have only names that are empty. -/
theorem nil_of_mem_splitOn_slashes {cs piece : List Char} (h : ∀ c ∈ cs, c = '/')
    (hpiece : piece ∈ Text.splitOn '/' cs) : piece = [] := by
  cases piece with
  | nil => rfl
  | cons c piece =>
    have hc : c = '/' := h c (Text.mem_of_mem_splitOn hpiece List.mem_cons_self)
    exact absurd (by simp [hc]) (Text.not_mem_of_mem_splitOn hpiece)

/-- The first pieces of a text, joined, stand at its head with a separator behind them. -/
theorem joinWith_prefix_of_prefix_splitOn {sep : Char} {cs : List Char} {pieces : List (List Char)}
    (hne : pieces ≠ []) (h : pieces <+: Text.splitOn sep cs) :
    Text.joinWith [sep] pieces ++ [sep] <+: cs ++ [sep] := by
  obtain ⟨more, hmore⟩ := h
  have hjoined := Text.joinWith_splitOn sep cs
  rw [← hmore] at hjoined
  by_cases hnil : more = []
  · rw [hnil, List.append_nil] at hjoined
    exact ⟨[], by rw [hjoined, List.append_nil]⟩
  · rw [Text.joinWith_append [sep] hnil hne] at hjoined
    exact ⟨Text.joinWith [sep] more ++ [sep], by rw [← hjoined]; simp⟩

theorem toList_joined (names : List String) :
    (Text.joined "/" names).toList = Text.joinWith ['/'] (names.map String.toList) := by
  rw [Text.joined, String.toList_intercalate]
  rfl

/-- The first names of a directory, if the first of them is not empty, stand at the head of the path
    with a slash behind each. -/
theorem joined_prefix_of_prefix_directoryNames {path name : String} {names : List String}
    (hname : name ≠ "") (h : name :: names <+: directoryNames path) :
    (Text.joined "/" (name :: names)).toList ++ ['/'] <+: path.toList := by
  have hpieces : (name :: names).map String.toList <+: Text.splitOn '/' (directory path).toList := by
    have hmap := h.map String.toList
    rwa [directoryNames, Text.map_toList_ofList] at hmap
  have hpath : (directory path).toList ++ ['/'] <+: path.toList := by
    refine (directory_cases path).resolve_left fun hslashes => hname ?_
    have hmem : name.toList ∈ Text.splitOn '/' (directory path).toList :=
      hpieces.subset List.mem_cons_self
    exact String.toList_eq_nil_iff.mp (nil_of_mem_splitOn_slashes hslashes hmem)
  rw [toList_joined]
  exact (joinWith_prefix_of_prefix_splitOn (List.cons_ne_nil _ _) hpieces).trans hpath

/-! ### The common directory -/

variable {paths : List String}

theorem commonDirectory_of_nil (h : sharedNames paths = []) : commonDirectory paths = "" := by
  simp only [commonDirectory, h]

theorem commonDirectory_of_cons {name : String} {names : List String}
    (h : sharedNames paths = name :: names) :
    commonDirectory paths = Text.joined "/" (name :: names) ++ "/" := by
  simp only [commonDirectory, h]

theorem ne_empty_of_mem_sharedNames {name : String} (h : name ∈ sharedNames paths) : name ≠ "" := by
  simpa using List.mem_takeWhile_imp h

/-- The shared names are the first names of the directory of every path. -/
theorem prefix_directoryNames_of_mem {path : String} (h : path ∈ paths) :
    sharedNames paths <+: directoryNames path := by
  have hne : paths.map directoryNames ≠ [] := by simpa using List.ne_nil_of_mem h
  exact (List.takeWhile_prefix _).trans
    ((longestShared_sharedHeads hne).head _ (List.mem_map_of_mem h))

/-- Cut at its slashes, the common directory has the shared names, and nothing behind the last
    slash. -/
theorem splitOn_commonDirectory (hne : paths ≠ []) :
    (Text.splitOn '/' (commonDirectory paths).toList).map String.ofList =
      sharedNames paths ++ [""] := by
  cases hnames : sharedNames paths with
  | nil =>
    rw [commonDirectory_of_nil hnames]
    rfl
  | cons name names =>
    obtain ⟨path, hpath⟩ := List.exists_mem_of_ne_nil paths hne
    have hslash : ∀ piece ∈ (name :: names).map String.toList, '/' ∉ piece := by
      intro piece hpiece
      have hpieces := (prefix_directoryNames_of_mem hpath).map String.toList
      rw [hnames, directoryNames, Text.map_toList_ofList] at hpieces
      exact Text.not_mem_of_mem_splitOn (hpieces.subset hpiece)
    have hcut : Text.splitOn '/' (commonDirectory paths).toList =
        (name :: names).map String.toList ++ [[]] := by
      rw [commonDirectory_of_cons hnames, String.toList_append, toList_joined,
        show "/".toList = '/' :: [] from rfl, Text.splitOn_append,
        Text.splitOn_joinWith (by simp) hslash]
      rfl
    rw [hcut, List.map_append, List.map_map]
    simp

theorem startsWith_commonDirectory {path : String} (h : path ∈ paths) :
    Text.startsWith path (commonDirectory paths) = true := by
  rw [Text.startsWith, List.isPrefixOf_iff_prefix]
  cases hnames : sharedNames paths with
  | nil =>
    rw [commonDirectory_of_nil hnames]
    exact List.nil_prefix
  | cons name names =>
    have hmem : name ∈ sharedNames paths := hnames ▸ List.mem_cons_self
    have hname : name ≠ "" := ne_empty_of_mem_sharedNames hmem
    have hhead := prefix_directoryNames_of_mem h
    rw [hnames] at hhead
    rw [commonDirectory_of_cons hnames, String.toList_append]
    exact joined_prefix_of_prefix_directoryNames hname hhead

/-- Only which paths there are counts. -/
theorem commonDirectory_congr {others : List String} (hne : paths ≠ [])
    (hsame : ∀ path, path ∈ others ↔ path ∈ paths) :
    commonDirectory others = commonDirectory paths := by
  have hne' : others ≠ [] := by
    obtain ⟨path, hpath⟩ := List.exists_mem_of_ne_nil paths hne
    exact List.ne_nil_of_mem ((hsame path).mpr hpath)
  have hlists : ∀ names, names ∈ others.map directoryNames ↔ names ∈ paths.map directoryNames := by
    intro names
    simp only [List.mem_map, hsame]
  have hshared : sharedHeads (others.map directoryNames) = sharedHeads (paths.map directoryNames) :=
    ((longestShared_sharedHeads (by simpa using hne)).congr hlists).unique
      (longestShared_sharedHeads (by simpa using hne'))
  have hnames : sharedNames others = sharedNames paths := by
    rw [sharedNames, hshared, sharedNames]
  simp only [commonDirectory, hnames]

/-- The common directory of some paths is made of the names that are shared by the directories of all
    of them, up to the first that is empty: there are none, and it is empty, or it is these names with
    a slash behind each, and nothing else comes out when it is cut at its slashes. Every path begins
    with it. It does not depend on the order of the paths or on how often each is there. -/
theorem commonDirectory_shared (paths : List String) (hne : paths ≠ []) :
    ∃ shared, LongestShared (paths.map directoryNames) shared ∧
      let names := shared.takeWhile fun n => !n.isEmpty
      (names = [] ∧ commonDirectory paths = "" ∨
          names ≠ [] ∧ commonDirectory paths = Text.joined "/" names ++ "/") ∧
        (∀ name ∈ names, name ≠ "") ∧
        (Text.splitOn '/' (commonDirectory paths).toList).map String.ofList = names ++ [""] ∧
        (∀ path ∈ paths, Text.startsWith path (commonDirectory paths) = true) ∧
        ∀ others, (∀ path, path ∈ others ↔ path ∈ paths) →
          commonDirectory others = commonDirectory paths := by
  refine ⟨_, longestShared_sharedHeads (by simpa using hne), ?_, ?_, splitOn_commonDirectory hne,
    fun path => startsWith_commonDirectory, fun others => commonDirectory_congr hne⟩
  · change sharedNames paths = [] ∧ _ ∨ sharedNames paths ≠ [] ∧
      _ = Text.joined "/" (sharedNames paths) ++ "/"
    cases hnames : sharedNames paths with
    | nil => exact Or.inl ⟨rfl, commonDirectory_of_nil hnames⟩
    | cons name names => exact Or.inr ⟨List.cons_ne_nil _ _, commonDirectory_of_cons hnames⟩
  · exact fun name => ne_empty_of_mem_sharedNames

/-- Paths with slashes that are doubled inside a directory and behind it. -/
def doubledPaths : List String := ["src//lib/a.js", "src/lib//b.js", "src/lib/c.js"]

theorem commonDirectory_shared_doubled :
    doubledPaths ≠ [] ∧ commonDirectory doubledPaths = "src/" ∧
      (∀ path ∈ doubledPaths, Text.startsWith path "src/" = true) ∧
      commonDirectory (doubledPaths.reverse ++ doubledPaths) = "src/" := by
  have hne : doubledPaths ≠ [] := List.cons_ne_nil _ _
  have hdirectory : commonDirectory doubledPaths = "src/" := by decide +kernel
  obtain ⟨_, -, -, -, -, hhead, hsame⟩ := commonDirectory_shared doubledPaths hne
  rw [hdirectory] at hhead hsame
  exact ⟨hne, hdirectory, hhead, hsame _ fun path => by simp⟩

end DocGraph.CommonPath
