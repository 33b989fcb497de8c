import Mathlib.Tactic.ByContra
import Handoff.Host.FileTree
/-!
# Looking up paths

Where the pieces of a path lead.  A path that leads to a directory can be gone on with from
there, its idle pieces at the end make no difference, and all that matters on the way are
directories and links.
-/

namespace Handoff

inductive FileEntry.IsFile : FileEntry → Prop
  | intro (id : Nat) (content : ByteArray) (mode : Nat) : IsFile (.file id content mode)

namespace FileTree

variable {tree other : FileTree} {links : Nat} {location target : Location}
  {pieces : List String}

/-! ## Entries -/

theorem lookup_cons_ite {α β : Type} [BEq α] [LawfulBEq α] [DecidableEq α] (key : α) (value : β)
    (rest : List (α × β)) (wanted : α) : ((key, value) :: rest).lookup wanted =
      if wanted = key then some value else rest.lookup wanted := by
  by_cases h : wanted = key
  · simp [h]
  · simp [List.lookup_cons, h, beq_false_of_ne h]

theorem lookup_filter_ne (entries : List (Location × FileEntry)) (location place : Location) :
    (entries.filter fun e => e.1 != location).lookup place =
      if place = location then none else entries.lookup place := by
  induction entries with
  | nil => simp
  | cons e rest ih =>
      obtain ⟨stands, entry⟩ := e
      by_cases hat : stands = location
      · subst hat
        rw [List.filter_cons_of_neg (by simp), ih, lookup_cons_ite]
        split <;> rfl
      · rw [List.filter_cons_of_pos (by simpa using hat), lookup_cons_ite, lookup_cons_ite, ih]
        by_cases hplace : place = stands
        · simp [hplace, hat]
        · simp [hplace]

theorem lookup_set (tree : FileTree) {location place : Location} (entry : FileEntry)
    (hplace : place ≠ []) : (tree.set location entry).lookup place =
      if place = location then some entry else tree.lookup place := by
  simp only [lookup, set, if_neg hplace, lookup_cons_ite, lookup_filter_ne]
  split <;> rfl

theorem lookup_unset (tree : FileTree) {location place : Location} (hplace : place ≠ []) :
    (tree.unset location).lookup place =
      if place = location then none else tree.lookup place := by
  simp only [lookup, unset, if_neg hplace, lookup_filter_ne]

/-- Links and directories are where they were. -/
def Keeps (tree after : FileTree) : Prop :=
  ∀ place entry, tree.lookup place = some entry →
    (entry = .directory ∨ ∃ text, entry = .link text) → after.lookup place = some entry

/-- Nothing but a file stands at the place. -/
def Free (tree : FileTree) (place : Location) : Prop :=
  ∀ entry, tree.lookup place = some entry → entry.IsFile

/-- The tree has become one with something else at a single place, or with nothing there. -/
def Alters (tree after : FileTree) (place : Location) (now? : Option FileEntry) : Prop :=
  ∀ other, other ≠ [] → after.lookup other = if other = place then now? else tree.lookup other

theorem alters_set (tree : FileTree) (place : Location) (entry : FileEntry) :
    tree.Alters (tree.set place entry) place (some entry) := fun _ hsome =>
  lookup_set tree entry hsome

theorem alters_unset (tree : FileTree) (place : Location) :
    tree.Alters (tree.unset place) place none := fun _ hsome =>
  lookup_unset tree hsome

theorem Alters.lookup_self {after : FileTree} {place : Location} {now? : Option FileEntry}
    (h : tree.Alters after place now?) (hsome : place ≠ []) : after.lookup place = now? := by
  rw [h place hsome, if_pos rfl]

theorem Alters.lookup_of_ne {after : FileTree} {place other : Location}
    {now? : Option FileEntry} (h : tree.Alters after place now?) (hne : other ≠ place) :
    after.lookup other = tree.lookup other := by
  by_cases hsome : other = []
  · rw [hsome, lookup, lookup, if_pos rfl, if_pos rfl]
  · rw [h other hsome, if_neg hne]

theorem Alters.again {middle after : FileTree} {place : Location} {first second : Option FileEntry}
    (h : tree.Alters middle place first) (hnext : middle.Alters after place second) :
    tree.Alters after place second := by
  intro other hsome
  rw [hnext other hsome]
  split
  · rfl
  · next hne => exact h.lookup_of_ne hne

theorem Alters.detour {written after : FileTree} {spare place : Location}
    {first second : Option FileEntry} (h : tree.Alters written spare first)
    (hnone : tree.lookup spare = none) (hnext : (written.unset spare).Alters after place second) :
    tree.Alters after place second := by
  intro other hsome
  rw [hnext other hsome, lookup_unset _ hsome]
  split
  · rfl
  split
  · next hspot => rw [hspot, hnone]
  · next hspot => exact h.lookup_of_ne hspot

theorem free_of_none {place : Location} (h : tree.lookup place = none) : tree.Free place := by
  intro entry hfound
  rw [h] at hfound
  cases hfound

theorem free_of_file {place : Location} {id mode : Nat} {content : ByteArray}
    (h : tree.lookup place = some (.file id content mode)) : tree.Free place := by
  intro entry hfound
  rw [h] at hfound
  cases hfound
  exact .intro id content mode

theorem Free.ne_directory {place : Location} (h : tree.Free place) :
    tree.lookup place ≠ some .directory := by
  intro hdir
  cases h .directory hdir

theorem Free.unset {place : Location} (h : tree.Free place) (hsome : place ≠ [])
    (other : Location) : (tree.unset other).Free place := by
  intro entry hfound
  rw [lookup_unset _ hsome] at hfound
  split at hfound
  · cases hfound
  · exact h entry hfound

/-- Where nothing but a file stood, a change leaves directories and links alone. -/
theorem Alters.keeps {after : FileTree} {place : Location} {now? : Option FileEntry}
    (h : tree.Alters after place now?) (hfree : tree.Free place) : tree.Keeps after := by
  intro other entry hfound hkind
  by_cases hother : other = place
  · subst hother
    cases hfree entry hfound
    rcases hkind with hdir | ⟨text, hlink⟩
    · cases hdir
    · cases hlink
  · rw [h.lookup_of_ne hother, hfound]

theorem Keeps.trans {middle after : FileTree} (h : tree.Keeps middle)
    (hnext : middle.Keeps after) : tree.Keeps after := fun place entry hfound hkind =>
  hnext place entry (h place entry hfound hkind) hkind

/-! ## Children -/

def Distinct (tree : FileTree) (location : Location) : Prop :=
  tree.entries.Pairwise fun a b => location <+: a.1 → a.1 ≠ location → a.1 ≠ b.1

theorem Distinct.set (h : tree.Distinct location) (place : Location) (entry : FileEntry) :
    (tree.set place entry).Distinct location := by
  refine List.pairwise_cons.2 ⟨fun e he _ _ => ?_, h.sublist List.filter_sublist⟩
  have hne : e.1 ≠ place := by simpa using (List.mem_filter.1 he).2
  exact hne.symm

theorem Distinct.unset (h : tree.Distinct location) (place : Location) :
    (tree.unset place).Distinct location :=
  h.sublist List.filter_sublist

theorem Distinct.setNew (h : tree.Distinct location) (place : Location) (content : ByteArray) :
    (tree.setNew place content).Distinct location :=
  h.set place (.file tree.nextId content plainMode)

theorem Distinct.mem_entries_iff (h : tree.Distinct location) {place : Location}
    (hbelow : location <+: place) (hplace : place ≠ location) (hsome : place ≠ [])
    {entry : FileEntry} : (place, entry) ∈ tree.entries ↔ tree.lookup place = some entry := by
  rw [lookup, if_neg hsome]
  constructor
  · intro hmem
    obtain ⟨before, after, hsplit⟩ := List.append_of_mem hmem
    rw [Distinct, hsplit, List.pairwise_append] at h
    refine List.lookup_eq_some_iff.2 ⟨before, after, hsplit, fun e he => ?_⟩
    by_contra hsame
    have heq : place = e.1 := by simpa using hsame
    exact h.2.2 e he _ List.mem_cons_self (heq ▸ hbelow) (heq ▸ hplace) heq.symm
  · intro hfound
    obtain ⟨before, after, hsplit, -⟩ := List.lookup_eq_some_iff.1 hfound
    simp [hsplit]

def child? (location : Location) (e : Location × FileEntry) : Option (FileName × FileEntry) :=
  match e.1.getLast? with
  | some name => if e.1.dropLast = location then some (name, e.2) else none
  | none => none

theorem child?_eq_some_iff {e : Location × FileEntry} {name : FileName} {entry : FileEntry} :
    child? location e = some (name, entry) ↔ e = (location ++ [name], entry) := by
  obtain ⟨place, found⟩ := e
  rw [child?]
  rcases List.eq_nil_or_concat place with rfl | ⟨front, last, rfl⟩
  · simp
  · simp only [List.concat_eq_append, List.getLast?_concat, List.dropLast_concat, Prod.mk.injEq]
    constructor
    · intro h
      split at h
      · next hfront =>
        cases h
        exact ⟨by rw [hfront], rfl⟩
      · cases h
    · rintro ⟨hplace, rfl⟩
      obtain ⟨rfl, hlast⟩ := List.append_inj' hplace rfl
      cases hlast
      rw [if_pos rfl]

theorem concat_ne {parent : Location} (h : location <+: parent) (name : FileName) :
    parent ++ [name] ≠ location := by
  rintro rfl
  have := h.length_le
  rw [List.length_append, List.length_singleton] at this
  omega

theorem Distinct.mem_children_iff (h : tree.Distinct location) {parent : Location}
    (hparent : location <+: parent) {name : FileName} {entry : FileEntry} :
    (name, entry) ∈ tree.children parent ↔ tree.lookup (parent ++ [name]) = some entry := by
  have hplace : parent ++ [name] ≠ location := concat_ne hparent name
  rw [← h.mem_entries_iff (hparent.trans (List.prefix_append _ _)) hplace (by simp)]
  change (name, entry) ∈ tree.entries.filterMap (child? parent) ↔ _
  simp only [List.mem_filterMap, child?_eq_some_iff]
  exact ⟨fun ⟨e, he, heq⟩ => heq ▸ he, fun he => ⟨_, he, rfl⟩⟩

theorem Distinct.nodup_children (h : tree.Distinct location) {parent : Location}
    (hparent : location <+: parent) :
    (tree.children parent).Pairwise fun a b => a.1 ≠ b.1 := by
  change (tree.entries.filterMap (child? parent)).Pairwise _
  refine List.pairwise_filterMap.2 (h.imp fun {e e'} hne a ha b hb hname => ?_)
  obtain ⟨name, entry⟩ := a
  obtain ⟨other, entry'⟩ := b
  obtain rfl : name = other := hname
  obtain rfl := child?_eq_some_iff.1 ha
  obtain rfl := child?_eq_some_iff.1 hb
  exact hne (hparent.trans (List.prefix_append _ _)) (concat_ne hparent name) rfl

/-! ## Ways to directories -/

structure IsName (piece : String) : Prop where
  not_idle : Path.isIdle piece = false
  not_up : piece ≠ ".."
  fits : piece.utf8ByteSize ≤ nameMax

/-- The pieces lead from one directory to another, through so many links at most. -/
inductive Leads (tree : FileTree) : Nat → Location → List String → Location → Prop
  | here {links : Nat} {location : Location} : Leads tree links location [] location
  | idle {links : Nat} {location target : Location} {piece : String} {rest : List String}
      (idle : Path.isIdle piece = true) (further : Leads tree links location rest target) :
      Leads tree links location (piece :: rest) target
  | up {links : Nat} {location target : Location} {rest : List String}
      (further : Leads tree links location.dropLast rest target) :
      Leads tree links location (".." :: rest) target
  | down {links : Nat} {location target : Location} {piece : String} {rest : List String}
      (name : IsName piece) (found : tree.lookup (location ++ [.named piece]) = some .directory)
      (further : Leads tree links (location ++ [.named piece]) rest target) :
      Leads tree links location (piece :: rest) target
  | link {links : Nat} {location target : Location} {piece text : String} {rest : List String}
      (name : IsName piece) (found : tree.lookup (location ++ [.named piece]) = some (.link text))
      (some_text : text ≠ "")
      (further : Leads tree links (start location text) (BlobKey.segmentsOf text ++ rest) target) :
      Leads tree (links + 1) location (piece :: rest) target

theorem follow_cons_of_isIdle (f : Bool) {piece : String} (h : Path.isIdle piece = true)
    (rest : List String) : tree.follow f links location (piece :: rest) =
      tree.follow f links location rest := by
  rw [follow_cons, if_pos h]

theorem follow_cons_up (f : Bool) (rest : List String) :
    tree.follow f links location (".." :: rest) = tree.follow f links location.dropLast rest := by
  rw [follow_cons, if_neg (by decide), if_pos rfl]

theorem follow_cons_of_isName (f : Bool) {piece : String} (h : IsName piece)
    (rest : List String) : tree.follow f links location (piece :: rest) =
      match tree.lookup (location ++ [.named piece]) with
      | none =>
          if rest.all (· == "") then .ok (.absent location (.named piece)) else .error .notFound
      | some .directory => tree.follow f links (location ++ [.named piece]) rest
      | some (.link text) =>
          if rest.isEmpty && !f then .ok (.present (location ++ [.named piece]) (.link text))
          else
            match links with
            | 0 => .error .tooManyLinks
            | links + 1 =>
                if text = "" then .error .notFound
                else tree.follow f links (start location text) (BlobKey.segmentsOf text ++ rest)
      | some entry =>
          if rest.isEmpty then .ok (.present (location ++ [.named piece]) entry)
          else .error .notDirectory := by
  rw [follow_cons, if_neg (by simp [h.not_idle]), if_neg h.not_up]
  exact if_neg (Nat.not_lt.2 h.fits)

theorem leads_of_follow
    (h : tree.follow true links location pieces = .ok (.present target .directory)) :
    tree.Leads links location pieces target := by
  -- At a link there are fewer links left, and everywhere else fewer pieces.
  induction links using Nat.strongRecOn generalizing location pieces with
  | ind links ihlinks =>
    induction pieces generalizing location with
    | nil =>
        rw [follow_nil] at h
        cases h
        exact .here
    | cons piece rest ih =>
        rw [follow_cons] at h
        split at h
        · next hidle => exact .idle hidle (ih h)
        split at h
        · next hup =>
          subst hup
          exact .up (ih h)
        split at h
        · cases h
        next hidle hup hfits =>
        have hname : IsName piece := ⟨by simpa using hidle, hup, Nat.not_lt.1 hfits⟩
        split at h
        · split at h <;> cases h
        · next hfound => exact .down hname hfound (ih h)
        · next text hfound =>
          rw [if_neg (by simp)] at h
          cases links with
          | zero => cases h
          | succ links =>
              dsimp only at h
              split at h
              · cases h
              · next htext => exact .link hname hfound htext (ihlinks links (Nat.lt_succ_self _) h)
        · next hdirectory _ _ =>
          split at h
          · cases h
            exact (hdirectory rfl).elim
          · cases h

namespace Leads

/-- A path to a directory can be gone on with from there, through the links that are left. -/
theorem follow_append (h : tree.Leads links location pieces target) :
    ∃ left, ∀ (f : Bool) (more : List String), more ≠ [] →
      tree.follow f links location (pieces ++ more) = tree.follow f left target more := by
  induction h with
  | @here links _ => exact ⟨links, fun f more _ => rfl⟩
  | idle hidle _ ih =>
      obtain ⟨left, hleft⟩ := ih
      refine ⟨left, fun f more hmore => ?_⟩
      rw [List.cons_append, follow_cons_of_isIdle f hidle]
      exact hleft f more hmore
  | up _ ih =>
      obtain ⟨left, hleft⟩ := ih
      refine ⟨left, fun f more hmore => ?_⟩
      rw [List.cons_append, follow_cons_up]
      exact hleft f more hmore
  | down hname hfound _ ih =>
      obtain ⟨left, hleft⟩ := ih
      refine ⟨left, fun f more hmore => ?_⟩
      rw [List.cons_append, follow_cons_of_isName f hname, hfound]
      exact hleft f more hmore
  | @link _ _ _ _ _ rest hname hfound htext _ ih =>
      obtain ⟨left, hleft⟩ := ih
      refine ⟨left, fun f more hmore => ?_⟩
      have hlast : ((rest ++ more).isEmpty && !f) = false := by simp [hmore]
      rw [List.cons_append, follow_cons_of_isName f hname, hfound]
      simp only [hlast, Bool.false_eq_true, if_false, if_neg htext, ← List.append_assoc]
      exact hleft f more hmore

theorem follow_eq (h : tree.Leads links location pieces target) :
    tree.follow true links location pieces = .ok (.present target .directory) := by
  induction h with
  | here => exact follow_nil tree true _ _
  | idle hidle _ ih => rw [follow_cons_of_isIdle true hidle]; exact ih
  | up _ ih => rw [follow_cons_up]; exact ih
  | down hname hfound _ ih => rw [follow_cons_of_isName true hname, hfound]; exact ih
  | link hname hfound htext _ ih =>
      rw [follow_cons_of_isName true hname, hfound]
      simpa only [Bool.not_true, Bool.and_false, Bool.false_eq_true, if_false, if_neg htext]
        using ih

theorem present (h : tree.Leads links location pieces target) (f : Bool) :
    ∃ place entry, tree.follow f links location pieces = .ok (.present place entry) := by
  induction h with
  | here => exact ⟨_, _, follow_nil tree f _ _⟩
  | idle hidle _ ih => rw [follow_cons_of_isIdle f hidle]; exact ih
  | up _ ih => rw [follow_cons_up]; exact ih
  | down hname hfound _ ih => rw [follow_cons_of_isName f hname, hfound]; exact ih
  | link hname hfound htext _ ih =>
      rw [follow_cons_of_isName f hname, hfound]
      dsimp only
      split
      · exact ⟨_, _, rfl⟩
      · exact ih

theorem eq_of_isIdle (h : tree.Leads links location pieces target)
    (hidle : ∀ piece ∈ pieces, Path.isIdle piece = true) : location = target := by
  induction h with
  | here => rfl
  | idle _ _ ih => exact ih (List.forall_mem_cons.1 hidle).2
  | up => exact absurd (List.forall_mem_cons.1 hidle).1 (by decide)
  | down hname | link hname =>
      exact absurd (List.forall_mem_cons.1 hidle).1 (by simp [hname.not_idle])

/-- The first pieces of a path to a directory lead to a directory, to the same one when the
others are idle. -/
theorem of_append {more : List String}
    (h : tree.Leads links location (pieces ++ more) target) :
    ∃ middle, tree.Leads links location pieces middle ∧
      ((∀ piece ∈ more, Path.isIdle piece = true) → middle = target) := by
  generalize hall : pieces ++ more = all at h
  induction h generalizing pieces with
  | here =>
      obtain ⟨rfl, rfl⟩ := List.append_eq_nil_iff.1 hall
      exact ⟨_, .here, fun _ => rfl⟩
  | idle hidle h ih =>
      cases pieces with
      | nil => exact ⟨_, .here, fun hmore => (h.idle hidle).eq_of_isIdle (hall ▸ hmore)⟩
      | cons piece pieces =>
          obtain ⟨rfl, rfl⟩ := List.cons.inj hall
          obtain ⟨middle, hmiddle, hsame⟩ := ih rfl
          exact ⟨middle, hmiddle.idle hidle, hsame⟩
  | up h ih =>
      cases pieces with
      | nil => exact ⟨_, .here, fun hmore => h.up.eq_of_isIdle (hall ▸ hmore)⟩
      | cons piece pieces =>
          obtain ⟨rfl, rfl⟩ := List.cons.inj hall
          obtain ⟨middle, hmiddle, hsame⟩ := ih rfl
          exact ⟨middle, hmiddle.up, hsame⟩
  | down hname hfound h ih =>
      cases pieces with
      | nil => exact ⟨_, .here, fun hmore => (h.down hname hfound).eq_of_isIdle (hall ▸ hmore)⟩
      | cons piece pieces =>
          obtain ⟨rfl, rfl⟩ := List.cons.inj hall
          obtain ⟨middle, hmiddle, hsame⟩ := ih rfl
          exact ⟨middle, hmiddle.down hname hfound, hsame⟩
  | link hname hfound htext h ih =>
      cases pieces with
      | nil =>
          exact ⟨_, .here, fun hmore => (h.link hname hfound htext).eq_of_isIdle (hall ▸ hmore)⟩
      | cons piece pieces =>
          obtain ⟨rfl, rfl⟩ := List.cons.inj hall
          obtain ⟨middle, hmiddle, hsame⟩ := ih (List.append_assoc _ _ _)
          exact ⟨middle, hmiddle.link hname hfound htext, hsame⟩

/-- Nothing matters on the way but directories and links. -/
theorem mono (h : tree.Leads links location pieces target) (hkept : tree.Keeps other) :
    other.Leads links location pieces target := by
  induction h with
  | here => exact .here
  | idle hidle _ ih => exact .idle hidle ih
  | up _ ih => exact .up ih
  | down hname hfound _ ih => exact .down hname (hkept _ _ hfound (.inl rfl)) ih
  | link hname hfound htext _ ih =>
      exact .link hname (hkept _ _ hfound (.inr ⟨_, rfl⟩)) htext ih

end Leads

end FileTree

end Handoff
