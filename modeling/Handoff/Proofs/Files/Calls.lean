import Mathlib.Tactic.ByContra
import Mathlib.Tactic.SplitIfs
import Handoff.Proofs.Files.Reach
/-!
# Calls on files below a directory

What the file calls come to at a path whose parent directory is there: each looks at, or
changes, the one place that the path names.
-/

namespace Handoff

namespace FileTree

variable {tree : FileTree} {cwd location parent : Location} {path : Path} {name : FileName}

/-! ## Places below a directory -/

def below (location : Location) (names : List String) : Location :=
  location ++ names.map .named

@[simp] theorem below_nil (location : Location) : below location [] = location := by
  simp [below]

theorem below_concat (location : Location) (names : List String) (name : String) :
    below location (names ++ [name]) = below location names ++ [.named name] := by
  simp [below]

theorem below_cons (location : Location) (name : String) (names : List String) :
    below location (name :: names) = below (location ++ [.named name]) names := by
  simp [below]

theorem below_injective {location : Location} {a b : List String}
    (h : below location a = below location b) : a = b :=
  (List.map_inj_right fun _ _ => FileName.named.inj).1 (List.append_cancel_left h)

theorem below_ne_nil (location : Location) {names : List String} (h : names ≠ []) :
    below location names ≠ [] := by
  simp [below, h]

structure HasDirs (tree : FileTree) (location : Location) (names : List String) : Prop where
  named : ∀ name ∈ names, IsName name
  dirs : ∀ front, front <+: names → front ≠ [] →
    tree.lookup (below location front) = some .directory

theorem hasDirs_nil (tree : FileTree) (location : Location) : tree.HasDirs location [] where
  named := by simp
  dirs front hfront hsome := absurd (List.prefix_nil.1 hfront) hsome

theorem hasDirs_cons {first : String} {names : List String} :
    tree.HasDirs location (first :: names) ↔ IsName first ∧
      tree.lookup (location ++ [.named first]) = some .directory ∧
      tree.HasDirs (location ++ [.named first]) names := by
  constructor
  · rintro ⟨hnamed, hdirs⟩
    obtain ⟨hfirst, hrest⟩ := List.forall_mem_cons.1 hnamed
    refine ⟨hfirst, hdirs [first] ⟨names, rfl⟩ (by simp), hrest, fun front hfront _ => ?_⟩
    rw [← below_cons]
    exact hdirs (first :: front) ((List.prefix_cons_inj first).2 hfront) (by simp)
  · rintro ⟨hfirst, hfound, hnamed, hdirs⟩
    refine ⟨List.forall_mem_cons.2 ⟨hfirst, hnamed⟩, fun front hfront hsome => ?_⟩
    obtain ⟨head, rest, rfl⟩ := List.exists_cons_of_ne_nil hsome
    obtain ⟨rfl, hrest⟩ := List.cons_prefix_cons.1 hfront
    rw [below_cons]
    by_cases hlast : rest = []
    · rw [hlast, below_nil]
      exact hfound
    · exact hdirs rest hrest hlast

theorem hasDirs_concat {names : List String} {last : String} :
    tree.HasDirs location (names ++ [last]) ↔ tree.HasDirs location names ∧ IsName last ∧
      tree.lookup (below location (names ++ [last])) = some .directory := by
  induction names generalizing location with
  | nil => simp [hasDirs_cons, hasDirs_nil, below]
  | cons first names ih =>
      rw [List.cons_append, hasDirs_cons, hasDirs_cons, ih, below_cons, and_assoc, and_assoc]

theorem HasDirs.mono {other : FileTree} {names : List String} (h : tree.HasDirs location names)
    (hkept : tree.Keeps other) : other.HasDirs location names where
  named := h.named
  dirs front hfront hsome := hkept _ _ (h.dirs front hfront hsome) (.inl rfl)

theorem HasDirs.leads {names : List String} (h : tree.HasDirs location names) (links : Nat) :
    tree.Leads links location names (below location names) := by
  induction names generalizing location with
  | nil =>
      rw [below_nil]
      exact .here
  | cons first names ih =>
      obtain ⟨hfirst, hfound, hrest⟩ := hasDirs_cons.1 h
      rw [below_cons]
      exact .down hfirst hfound (ih hrest)

def targetAt (tree : FileTree) (parent : Location) (name : FileName) : Target :=
  match tree.lookup (parent ++ [name]) with
  | none => .absent parent name
  | some entry => .present (parent ++ [name]) entry

theorem HasDirs.follow_concat {names : List String} (h : tree.HasDirs location names)
    {last : String} (hlast : IsName last)
    (hlink : ∀ text, tree.lookup (below location (names ++ [last])) ≠ some (.link text))
    (f : Bool) (links : Nat) : tree.follow f links location (names ++ [last]) =
      .ok (tree.targetAt (below location names) (.named last)) := by
  obtain ⟨left, hleft⟩ := (h.leads links).follow_append
  rw [below_concat] at hlink
  rw [hleft f [last] (by simp), follow_cons_of_isName f hlast, targetAt]
  cases hfound : tree.lookup (below location names ++ [.named last]) with
  | none => rfl
  | some entry =>
      cases entry with
      | directory => exact follow_nil tree f _ _
      | link text => exact absurd hfound (hlink text)
      | _ => rfl

theorem HasDirs.follow_missing {names rest : List String} (h : tree.HasDirs location names)
    {missing : String} (hmissing : IsName missing)
    (hnone : tree.lookup (below location (names ++ [missing])) = none)
    (hrest : ∃ name ∈ rest, name ≠ "") (f : Bool) (links : Nat) :
    tree.follow f links location (names ++ missing :: rest) = .error .notFound := by
  obtain ⟨left, hleft⟩ := (h.leads links).follow_append
  rw [below_concat] at hnone
  have hall : rest.all (· == "") = false := by simpa using hrest
  rw [hleft f _ (by simp), follow_cons_of_isName f hmissing, hnone]
  simp [hall]

theorem follow_name_too_long (f : Bool) (links : Nat) {name : String}
    (hplain : Path.IsPlain name) (hlong : nameMax < name.utf8ByteSize) (rest : List String) :
    tree.follow f links location (name :: rest) = .error .nameTooLong := by
  have hidle : ¬Path.isIdle name = true := by simp [hplain.not_idle]
  rw [follow_cons, if_neg hidle, if_neg hplain.not_up, if_pos hlong]

theorem isName_of_follow {name : String} {rest : List String} {f : Bool} {links : Nat}
    {target : Target} (hplain : Path.IsPlain name)
    (h : tree.follow f links location (name :: rest) = .ok target) : IsName name := by
  refine hplain.isName ?_
  by_contra hlong
  rw [follow_name_too_long f links hplain (Nat.not_le.1 hlong)] at h
  cases h

/-- Where there are no links, a path that leads somewhere leads through directories. -/
theorem hasDirs_of_follow {names : List String} {last : String} {f : Bool} {links : Nat}
    {target : Target} (hnames : ∀ name ∈ names ++ [last], Path.IsPlain name)
    (hlinks : ∀ front text, front ≠ [] → tree.lookup (below location front) ≠ some (.link text))
    (h : tree.follow f links location (names ++ [last]) = .ok target) :
    tree.HasDirs location names ∧ IsName last := by
  induction names generalizing location with
  | nil =>
      exact ⟨hasDirs_nil tree location, isName_of_follow (hnames last (by simp)) h⟩
  | cons first rest ih =>
      obtain ⟨hplain, hrest⟩ := List.forall_mem_cons.1 hnames
      have hfirst : IsName first := isName_of_follow hplain h
      have hmore : (rest ++ [last]).all (· == "") = false := by
        have := (hnames last (by simp)).ne_empty
        simp [this]
      rw [List.cons_append, follow_cons_of_isName f hfirst] at h
      cases hfound : tree.lookup (location ++ [.named first]) with
      | none => simp [hfound, hmore] at h
      | some entry =>
          cases entry with
          | directory =>
              rw [hfound] at h
              obtain ⟨hdirs, hlast⟩ := ih hrest (fun front text _ => by
                rw [← below_cons]
                exact hlinks (first :: front) text (by simp)) h
              exact ⟨hasDirs_cons.2 ⟨hfirst, hfound, hdirs⟩, hlast⟩
          | link text =>
              have := hlinks [first] text (by simp)
              rw [below_cons, below_nil] at this
              exact absurd hfound this
          | _ => simp [hfound] at h

/-! ## Calls at a place -/

/-- The path names what stands under the name in the directory at `parent`. -/
structure Finds (tree : FileTree) (cwd : Location) (path : Path) (parent : Location)
    (name : FileName) : Prop where
  resolve : ∀ f, tree.resolve f cwd path.text = .ok (tree.targetAt parent name)
  slash : hasFinalSlash path.text = false

theorem HasDirs.finds {names : List String} {last : String} (h : tree.HasDirs [] names)
    (hlast : IsName last) (hpieces : path.pieces = "" :: (names ++ [last]))
    (hnul : '\x00' ∉ path.text.toList) (hsize : path.text.utf8ByteSize < pathMax)
    (hslash : hasFinalSlash path.text = false)
    (hlink : ∀ text, tree.lookup (below [] (names ++ [last])) ≠ some (.link text)) :
    tree.Finds cwd path (below [] names) (.named last) := by
  have hempty : path.text ≠ "" := by
    intro htext
    have hsingle : BlobKey.segmentsOf "" = [""] := by decide
    rw [Path.pieces, htext, hsingle] at hpieces
    simp at hpieces
  refine ⟨fun f => ?_, hslash⟩
  rw [resolve_eq f cwd hnul hempty hsize, start_eq cwd hempty, hpieces, List.head?_cons,
    if_pos rfl, follow_cons_of_isIdle f (by decide)]
  exact h.follow_concat hlast hlink f linkMax

theorem withoutFinalSlash_eq {text : String} (hslash : hasFinalSlash text = false) :
    withoutFinalSlash text = text := by
  rw [withoutFinalSlash, if_neg (by simp [hslash])]

theorem size_of_resolve {f : Bool} {text : String} {target : Target}
    (h : tree.resolve f cwd text = .ok target) : text.utf8ByteSize < pathMax := by
  rw [FileTree.resolve] at h
  split_ifs at h with hnul hempty hsize
  exact Nat.not_le.1 hsize

theorem Finds.resolveName (h : tree.Finds cwd path parent name) :
    tree.resolveName cwd path.text = .ok (tree.targetAt parent name) := by
  rw [FileTree.resolveName, if_neg (Nat.not_le.2 (size_of_resolve (h.resolve true))),
    withoutFinalSlash_eq h.slash]
  exact h.resolve false

theorem Finds.isDir (h : tree.Finds cwd path parent name) :
    tree.isDir cwd path.text = decide (tree.lookup (parent ++ [name]) = some .directory) := by
  rw [FileTree.isDir, h.resolve, targetAt]
  cases tree.lookup (parent ++ [name]) with
  | none => rfl
  | some entry => cases entry <;> rfl

theorem Finds.makeDir (h : tree.Finds cwd path parent name) :
    tree.makeDir cwd path.text =
      if (tree.lookup (parent ++ [name])).isSome then .error .alreadyExists
      else .ok (tree.set (parent ++ [name]) .directory) := by
  rw [FileTree.makeDir, h.resolveName, targetAt]
  cases tree.lookup (parent ++ [name]) <;> rfl

theorem Finds.read_none (h : tree.Finds cwd path parent name)
    (hfound : tree.lookup (parent ++ [name]) = none) :
    tree.read cwd path.text = .error .notFound := by
  rw [FileTree.read, h.resolve, targetAt, hfound]

theorem Finds.read_file (h : tree.Finds cwd path parent name) {id mode : Nat}
    {content : ByteArray} (hfound : tree.lookup (parent ++ [name]) = some (.file id content mode)) :
    tree.read cwd path.text = .ok content := by
  rw [FileTree.read, h.resolve, targetAt, hfound]
  rfl

theorem Finds.write_none (h : tree.Finds cwd path parent name) (content : ByteArray)
    (hfound : tree.lookup (parent ++ [name]) = none) :
    tree.write cwd path.text content = .ok (tree.setNew (parent ++ [name]) content) := by
  rw [FileTree.write, if_neg (by simp [h.slash]), h.resolve, targetAt, hfound]

theorem Finds.write_file (h : tree.Finds cwd path parent name) (content : ByteArray)
    {id mode : Nat} {old : ByteArray}
    (hfound : tree.lookup (parent ++ [name]) = some (.file id old mode)) :
    tree.write cwd path.text content =
      .ok (tree.set (parent ++ [name]) (.file id content mode)) := by
  rw [FileTree.write, if_neg (by simp [h.slash]), h.resolve, targetAt, hfound]

theorem Finds.remove_none (h : tree.Finds cwd path parent name)
    (hfound : tree.lookup (parent ++ [name]) = none) :
    tree.remove cwd path.text = .error .notFound := by
  rw [FileTree.remove, h.resolveName, targetAt, hfound]

theorem Finds.remove_file (h : tree.Finds cwd path parent name) {id mode : Nat}
    {content : ByteArray} (hfound : tree.lookup (parent ++ [name]) = some (.file id content mode)) :
    tree.remove cwd path.text = .ok (tree.unset (parent ++ [name])) := by
  rw [FileTree.remove, h.resolveName, targetAt, hfound]
  simp [h.slash]

theorem Finds.rename_file {source target : Path} {above : Location} {last : FileName}
    (h : tree.Finds cwd source parent name) (htarget : tree.Finds cwd target above last)
    {id mode : Nat} {content : ByteArray}
    (hfound : tree.lookup (parent ++ [name]) = some (.file id content mode))
    (hplace : tree.lookup (above ++ [last]) ≠ some .directory) :
    tree.rename cwd source.text target.text =
      .ok ((tree.unset (parent ++ [name])).set (above ++ [last]) (.file id content mode)) := by
  rw [FileTree.rename, h.resolveName, htarget.resolveName, targetAt, hfound, targetAt]
  cases hthere : tree.lookup (above ++ [last]) with
  | none => simp [h.slash, htarget.slash]
  | some entry =>
      cases entry with
      | directory => exact absurd hthere hplace
      | _ => simp [h.slash, htarget.slash]

/-! ## Joined names -/

theorem hasFinalSlash_joins {names : List String} (hpath : path.text ≠ "")
    (hnames : ∀ name ∈ names, Path.IsPlain name) (hsome : names ≠ []) :
    hasFinalSlash (path.joins names).text = false := by
  have hlast : (path.joins names).text.toList.getLast? ≠ some '/' := by
    rw [Ne, ← BlobKey.getLast?_segmentsOf (Path.text_ne_empty_joins hpath hnames), ← Path.pieces,
      Path.pieces_joins hpath hnames hsome, List.getLast?_append,
      List.getLast?_eq_some_getLast hsome, Option.some_or]
    intro hempty
    exact (hnames _ (List.getLast_mem hsome)).ne_empty (Option.some.inj hempty)
  rw [hasFinalSlash, beq_false_of_ne hlast, Bool.false_and]

def NoLinks (tree : FileTree) (location : Location) : Prop :=
  ∀ names text, names ≠ [] → tree.lookup (below location names) ≠ some (.link text)

theorem Alters.noLinks {after : FileTree} {place : Location} {now? : Option FileEntry}
    (h : tree.Alters after place now?) (hlinks : tree.NoLinks location)
    (hentry : ∀ text, now? ≠ some (.link text)) : after.NoLinks location := by
  intro names text hsome
  rw [h _ (below_ne_nil location hsome)]
  split
  · exact hentry text
  · exact hlinks names text hsome

theorem Reaches.finds (h : tree.Reaches cwd path location) {names : List String} {last : String}
    (hnames : ∀ name ∈ names ++ [last], Path.IsPlain name)
    (hsize : (path.joins (names ++ [last])).text.utf8ByteSize < pathMax)
    (hdirs : tree.HasDirs location names) (hlast : IsName last)
    (hlinks : tree.NoLinks location) :
    tree.Finds cwd (path.joins (names ++ [last])) (below location names) (.named last) := by
  obtain ⟨left, hleft⟩ := h.resolve_joins
  refine ⟨fun f => ?_, hasFinalSlash_joins (reaches_iff.1 h).2.1 hnames (by simp)⟩
  rw [hleft f _ (by simp) hnames hsize]
  exact hdirs.follow_concat hlast (fun text => hlinks _ text (by simp)) f left

theorem Reaches.finds_of_ok (h : tree.Reaches cwd path location) {names : List String}
    {last : String} (hnames : ∀ name ∈ names ++ [last], Path.IsPlain name)
    (hlinks : tree.NoLinks location) {f : Bool} {target : Target}
    (hok : tree.resolve f cwd (path.joins (names ++ [last])).text = .ok target) :
    tree.HasDirs location names ∧ IsName last ∧
      tree.Finds cwd (path.joins (names ++ [last])) (below location names) (.named last) := by
  have hsize := size_of_resolve hok
  obtain ⟨left, hleft⟩ := h.resolve_joins
  rw [hleft f _ (by simp) hnames hsize] at hok
  obtain ⟨hdirs, hlast⟩ := hasDirs_of_follow hnames hlinks hok
  exact ⟨hdirs, hlast, h.finds hnames hsize hdirs hlast hlinks⟩

theorem Reaches.resolve_missing (h : tree.Reaches cwd path location) {names rest : List String}
    {missing : String} (hplain : ∀ name ∈ names ++ missing :: rest, Path.IsPlain name)
    (hsize : (path.joins (names ++ missing :: rest)).text.utf8ByteSize < pathMax)
    (hdirs : tree.HasDirs location names) (hmissing : IsName missing)
    (hnone : tree.lookup (below location (names ++ [missing])) = none) (hrest : rest ≠ [])
    (f : Bool) :
    tree.resolve f cwd (path.joins (names ++ missing :: rest)).text = .error .notFound := by
  obtain ⟨left, hleft⟩ := h.resolve_joins
  rw [hleft f _ (by simp) hplain hsize]
  refine hdirs.follow_missing hmissing hnone ?_ f left
  obtain ⟨name, more, rfl⟩ := List.exists_cons_of_ne_nil hrest
  exact ⟨name, List.mem_cons_self, (hplain name (by simp)).ne_empty⟩

/-- Where only directories stand on the way, all of them do or there is a first that is
missing. -/
theorem hasDirs_or_missing {names : List String} (hnamed : ∀ name ∈ names, IsName name)
    (hway : ∀ front, front <+: names → front ≠ [] →
      tree.lookup (below location front) = none ∨
        tree.lookup (below location front) = some .directory) :
    tree.HasDirs location names ∨ ∃ front missing rest, names = front ++ missing :: rest ∧
      tree.HasDirs location front ∧ tree.lookup (below location (front ++ [missing])) = none := by
  induction names generalizing location with
  | nil => exact .inl (hasDirs_nil tree location)
  | cons first rest ih =>
      obtain ⟨hfirst, hrest⟩ := List.forall_mem_cons.1 hnamed
      have hhead := hway [first] ⟨rest, rfl⟩ (by simp)
      rw [below_cons, below_nil] at hhead
      rcases hhead with hnone | hdir
      · exact .inr ⟨[], first, rest, rfl, hasDirs_nil tree location, by
          rwa [List.nil_append, below_cons, below_nil]⟩
      · have hbelow : ∀ front, front <+: rest → front ≠ [] →
            tree.lookup (below (location ++ [.named first]) front) = none ∨
              tree.lookup (below (location ++ [.named first]) front) = some .directory := by
          intro front hfront _
          rw [← below_cons]
          exact hway (first :: front) ((List.prefix_cons_inj first).2 hfront) (by simp)
        rcases ih hrest hbelow with hdirs | ⟨front, missing, after, rfl, hdirs, hnone⟩
        · exact .inl (hasDirs_cons.2 ⟨hfirst, hdir, hdirs⟩)
        · exact .inr ⟨first :: front, missing, after, rfl, hasDirs_cons.2 ⟨hfirst, hdir, hdirs⟩, by
            rwa [List.cons_append, below_cons]⟩

/-! ## Directories of joined names -/

/-- The joined names are pieces of a path that can be opened. -/
structure Fits (path : Path) (names : List String) : Prop where
  plain : ∀ name ∈ names, Path.IsPlain name
  named : ∀ name ∈ names, IsName name
  size : (path.joins names).text.utf8ByteSize < pathMax

theorem Fits.finds {names : List String} {last : String} (hfits : Fits path (names ++ [last]))
    (h : tree.Reaches cwd path location) (hdirs : tree.HasDirs location names)
    (hlinks : tree.NoLinks location) :
    tree.Finds cwd (path.joins (names ++ [last])) (below location names) (.named last) :=
  h.finds hfits.plain hfits.size hdirs (hfits.named last (by simp)) hlinks

theorem Reaches.joins {names : List String} (h : tree.Reaches cwd path location)
    (hdirs : tree.HasDirs location names) (hfits : Fits path names) :
    tree.Reaches cwd (path.joins names) (below location names) := by
  by_cases hsome : names = []
  · subst hsome
    rwa [below_nil]
  · obtain ⟨left, hleft⟩ := h.resolve_joins
    rw [Reaches, hleft true names hsome hfits.plain hfits.size]
    exact (hdirs.leads left).follow_eq

theorem Reaches.list (h : tree.Reaches cwd path location) : tree.list cwd path.text =
    .ok ((tree.children location).map fun e => (e.1, kindOf e.2)) := by
  rw [FileTree.list, h]

/-! ## A file that is moved into place -/

theorem Fits.write {names : List String} {last : String} (hfits : Fits path (names ++ [last]))
    (h : tree.Reaches cwd path location) (hdirs : tree.HasDirs location names)
    (hlinks : tree.NoLinks location) (hfree : tree.Free (below location (names ++ [last])))
    (content : ByteArray) :
    ∃ after id mode, tree.write cwd (path.joins (names ++ [last])).text content = .ok after ∧
      tree.Alters after (below location (names ++ [last])) (some (.file id content mode)) ∧
      (tree.Distinct location → after.Distinct location) := by
  have hfinds := hfits.finds h hdirs hlinks
  rw [below_concat] at hfree ⊢
  cases hfound : tree.lookup (below location names ++ [.named last]) with
  | none =>
      exact ⟨_, tree.nextId, plainMode, hfinds.write_none content hfound, alters_set _ _ _,
        fun hdistinct => hdistinct.setNew _ _⟩
  | some entry =>
      obtain ⟨id, old, mode⟩ := hfree entry hfound
      exact ⟨_, id, mode, hfinds.write_file content hfound, alters_set _ _ _,
        fun hdistinct => hdistinct.set _ _⟩

theorem Fits.rename {seat : Path} {names more : List String} {spare last : String}
    (hspare : Fits seat (names ++ [spare])) (hlast : Fits path (more ++ [last]))
    (hseat : tree.Reaches cwd seat location) (h : tree.Reaches cwd path location)
    (hnames : tree.HasDirs location names) (hmore : tree.HasDirs location more)
    (hlinks : tree.NoLinks location) {id mode : Nat} {content : ByteArray}
    (hfile : tree.lookup (below location (names ++ [spare])) = some (.file id content mode))
    (hfree : tree.Free (below location (more ++ [last]))) :
    ∃ after, tree.rename cwd (seat.joins (names ++ [spare])).text
        (path.joins (more ++ [last])).text = .ok after ∧
      (tree.unset (below location (names ++ [spare]))).Alters after
        (below location (more ++ [last])) (some (.file id content mode)) ∧
      (tree.Distinct location → after.Distinct location) := by
  have hsource := hspare.finds hseat hnames hlinks
  have htarget := hlast.finds h hmore hlinks
  rw [below_concat] at hfile hfree
  rw [below_concat, below_concat]
  exact ⟨_, hsource.rename_file htarget hfile hfree.ne_directory, alters_set _ _ _,
    fun hdistinct => (hdistinct.unset _).set _ _⟩

/-- A file that was written beside a place and is moved there shows at that place alone. -/
theorem Alters.rename {written : FileTree} {seat : Path} {names : List String}
    {last spare : String} {id mode : Nat} {content : ByteArray}
    (hwritten : tree.Alters written (below location (names ++ [spare]))
      (some (.file id content mode)))
    (hpath : tree.Reaches cwd path location) (hseat : tree.Reaches cwd seat location)
    (hdirs : tree.HasDirs location names) (hlinks : tree.NoLinks location)
    (hlast : Fits path (names ++ [last])) (hspare : Fits seat (names ++ [spare]))
    (hne : spare ≠ last) (hnone : tree.lookup (below location (names ++ [spare])) = none)
    (hfree : tree.Free (below location (names ++ [last]))) :
    ∃ after, written.rename cwd (seat.joins (names ++ [spare])).text
        (path.joins (names ++ [last])).text = .ok after ∧
      tree.Alters after (below location (names ++ [last])) (some (.file id content mode)) ∧
      (written.Distinct location → after.Distinct location) := by
  have hsome : below location (names ++ [spare]) ≠ [] := below_ne_nil location (by simp)
  have hapart : below location (names ++ [last]) ≠ below location (names ++ [spare]) := by
    intro heq
    have hlast := List.append_cancel_left (below_injective heq)
    exact hne (List.singleton_inj.1 hlast).symm
  have hkept := hwritten.keeps (free_of_none hnone)
  have hplace : written.Free (below location (names ++ [last])) := by
    intro entry hentry
    rw [hwritten.lookup_of_ne hapart] at hentry
    exact hfree entry hentry
  obtain ⟨after, hrename, hrenamed, hdistinct⟩ :=
    hspare.rename hlast (hseat.mono hkept) (hpath.mono hkept) (hdirs.mono hkept)
      (hdirs.mono hkept) (hwritten.noLinks hlinks (by simp)) (hwritten.lookup_self hsome) hplace
  exact ⟨after, hrename, hwritten.detour hnone hrenamed, hdistinct⟩

end FileTree

end Handoff
