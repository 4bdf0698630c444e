-- A tree of files reads back what was written to it. A text takes the place
-- of no directory, so every path that led to a place before still leads there.
import Recast.Disk.Tree

namespace Recast

namespace FileTree

variable {t t' : FileTree} {place other : Place} {e : Entry}

/-! ## Entries -/

theorem entry?_put (hne : place ≠ []) : entry? (t.put place e) place = some e := by
  have hplace : ¬ place.isEmpty = true := by simpa using hne
  unfold entry? put
  rw [if_neg hplace, List.lookup_eq_some_iff]
  refine ⟨_, [], rfl, ?_⟩
  intro entry hentry
  have hother : entry.1 ≠ place := by simpa using (List.mem_filter.mp hentry).2
  simpa using hother.symm

theorem entry?_put_other (h : other ≠ place) : entry? (t.put place e) other = t.entry? other := by
  have hone : (other == place) = false := by simpa using h
  unfold entry? put
  split
  · rfl
  · generalize t.entries = entries
    induction entries with
    | nil => simp [List.lookup_cons, hone]
    | cons entry rest ih =>
      obtain ⟨here, content⟩ := entry
      by_cases hhere : here = place
      · subst hhere
        simpa [List.lookup_cons, hone] using ih
      · dsimp only at ih ⊢
        rw [List.filter_cons_of_pos (by simpa using hhere), List.cons_append, List.lookup_cons,
          List.lookup_cons, ih]

/-! ## Paths -/

/-- What is found beside a new entry was there before. -/
theorem find_put_other {parent : Place} {name : String} (h : parent ++ [name] ≠ place) :
    (t.put place e).find parent name = t.find parent name := by
  unfold find
  rw [entry?_put_other h]

/-- A name leads on only if it is that of a directory. -/
theorem directory_of_step {start next : Place} {segment : String}
    (h : t.step start segment = .ok next) (hdot : segment ≠ ".") (hdots : segment ≠ "..") :
    t.entry? (start ++ [segment]) = some .directory := by
  unfold step at h
  rw [if_neg hdot, if_neg hdots] at h
  split at h
  · cases h
  · cases h
  · rename_i hfind
    unfold find at hfind
    split at hfind
    · cases hfind
    · simpa using hfind
  · cases h

/-- A step that was made before does not lead to the place of a new text. -/
theorem step_put (hfree : t.entry? place ≠ some .directory) {start next : Place} {segment : String}
    (h : t.step start segment = .ok next) : (t.put place e).step start segment = .ok next := by
  by_cases hdot : segment = "."
  · unfold step at h ⊢
    rwa [if_pos hdot] at h ⊢
  · by_cases hdots : segment = ".."
    · unfold step at h ⊢
      rwa [if_neg hdot, if_pos hdots] at h ⊢
    · have hother : start ++ [segment] ≠ place := by
        rintro rfl
        exact hfree (directory_of_step h hdot hdots)
      unfold step at h ⊢
      rwa [find_put_other hother]

theorem walk_put (hfree : t.entry? place ≠ some .directory) {start next : Place}
    {segments : List String} (h : t.walk start segments = .ok next) :
    (t.put place e).walk start segments = .ok next := by
  induction segments generalizing start with
  | nil => exact h
  | cons segment rest ih =>
    unfold walk at h ⊢
    split at h
    · rename_i middle hstep
      rw [step_put hfree hstep]
      exact ih h
    · cases h

theorem follow_put (hfree : t.entry? place ≠ some .directory) {p : Path} {target : Target}
    (h : t.follow p = .ok target) : (t.put place e).follow p = .ok target := by
  unfold follow at h ⊢
  have hhome : (t.put place e).home = t.home := rfl
  rw [hhome]
  split at h
  · cases h
  · split at h
    · cases h
    · split at h
      · cases h
      · rename_i h1 h2 h3
        rw [if_neg h1, if_neg h2, if_neg h3]
        dsimp only at h ⊢
        split at h
        · exact h
        · rename_i last hlast
          cases hwalk : t.walk (if p.isAbsolute then [] else t.home) p.segments.dropLast with
          | error e =>
            rw [hwalk] at h
            cases h
          | ok parent =>
            rw [hwalk] at h
            rw [walk_put hfree hwalk]
            exact h

/-! ## Texts -/

/-- A text is written to a name in a directory, in the place of no directory. -/
theorem write_cases {p : Path} {content : String} (h : t.write p content = .ok t') :
    ∃ parent name, t.follow p = .ok (.name parent name false) ∧
      t.entry? (parent ++ [name]) ≠ some .directory ∧ ¬ maxName < name.utf8ByteSize ∧
      t' = t.put (parent ++ [name]) (.text content) := by
  unfold write at h
  cases hfollow : t.follow p with
  | error e =>
    rw [hfollow] at h
    cases h
  | ok target =>
    rw [hfollow] at h
    cases target with
    | directory place => cases h
    | name parent name slashAfter =>
      cases slashAfter with
      | true => cases h
      | false =>
        by_cases hlong : maxName < name.utf8ByteSize
        · have hfind : t.find parent name = .error .nameTooLong := if_pos hlong
          simp only [bind, Except.bind, hfind] at h
          cases h
        · have hfind : t.find parent name = .ok (t.entry? (parent ++ [name])) := if_neg hlong
          simp only [bind, Except.bind, hfind] at h
          refine ⟨parent, name, rfl, ?_, hlong, ?_⟩
          · intro hdirectory
            rw [hdirectory] at h
            cases h
          · rw [if_neg Bool.false_ne_true] at h
            split at h
            · cases h
            · cases h
              rfl

/-- A text that was written is read back, and its file is there. -/
theorem read_write {p : Path} {content : String} (h : t.write p content = .ok t') :
    t'.read p = .ok content ∧ t'.present p = true := by
  obtain ⟨parent, name, hfollow, hfree, hshort, rfl⟩ := write_cases h
  have hlook : (t.put (parent ++ [name]) (.text content)).look p = .ok (.text content) := by
    unfold look
    have hfind : (t.put (parent ++ [name]) (.text content)).find parent name =
        .ok (some (.text content)) := by
      unfold find
      rw [if_neg hshort, entry?_put (by simp)]
    rw [follow_put hfree hfollow]
    simp only [bind, Except.bind, hfind]
    rfl
  unfold read present
  rw [hlook]
  exact ⟨rfl, rfl⟩

end FileTree

end Recast
