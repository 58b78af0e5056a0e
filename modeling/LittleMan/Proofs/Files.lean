/-
Files that are left alone.

* `Directory.follow_eq_ok_iff`: what following a path comes to, name by name;
* `Directory.read_write_of_ne`: a file is read as before after another place was written.

Two names are of one file if they lead to one place. Which place that is, the names alone say
(`Leads.place_eq`), whatever is there.
-/
import LittleMan.Files
namespace LittleMan

namespace Directory

/-- A name can stand in a directory. -/
def IsEntryName (name : String) : Prop := name ≠ ".." ∧ name.utf8ByteSize ≤ 255

/-- From a place, names lead to what is found. -/
inductive Leads (d : Directory) : (here : List String) → List String → Place → Prop where
  | nil (here : List String) : Leads d here [] .directory
  | up {here rest : List String} {found : Place} (h : Leads d (Path.climb here "..") rest found) :
      Leads d here (".." :: rest) found
  | into {here rest : List String} {part : String} {found : Place} (hname : IsEntryName part)
      (hlookup : d.entries.lookup (Path.climb here part) = some .directory)
      (h : Leads d (Path.climb here part) rest found) : Leads d here (part :: rest) found
  | file {here : List String} {part : String} {bytes : List UInt8} (hname : IsEntryName part)
      (hlookup : d.entries.lookup (Path.climb here part) = some (.file bytes)) :
      Leads d here [part] (.file (Path.climb here part) bytes)
  | vacant {here : List String} {part : String} (hname : IsEntryName part)
      (hlookup : d.entries.lookup (Path.climb here part) = none) :
      Leads d here [part] (.vacant (Path.climb here part))

variable {d after : Directory} {name other : String} {here parts place spot : List String}
  {found : Place} {bytes written : List UInt8}

theorem follow_eq_ok_iff (name : String) :
    d.follow name here parts = .ok found ↔ Leads d here parts found := by
  constructor
  · intro h
    induction parts generalizing here with
    | nil =>
      obtain rfl := Except.ok.inj h
      exact .nil here
    | cons part rest ih =>
      simp only [follow] at h
      split at h
      · next hup =>
        rw [hup] at h ⊢
        exact .up (ih h)
      · next hup =>
        split at h
        · cases h
        · next hsize =>
          have hname : IsEntryName part := ⟨hup, Nat.le_of_not_lt hsize⟩
          split at h
          · next hlookup => exact .into hname hlookup (ih h)
          · next hlookup =>
            split at h
            · next hrest =>
              cases h
              rw [hrest]
              exact .file hname hlookup
            · cases h
          · next hlookup =>
            split at h
            · next hrest =>
              cases h
              rw [hrest]
              exact .vacant hname hlookup
            · cases h
  · intro h
    induction h with
    | nil here => rfl
    | up _ ih => rw [follow, if_pos rfl, ih]
    | into hname hlookup _ ih =>
      rw [follow, if_neg hname.1, if_neg (Nat.not_lt_of_le hname.2), hlookup]
      exact ih
    | file hname hlookup =>
      rw [follow, if_neg hname.1, if_neg (Nat.not_lt_of_le hname.2), hlookup]
      rfl
    | vacant hname hlookup =>
      rw [follow, if_neg hname.1, if_neg (Nat.not_lt_of_le hname.2), hlookup]
      rfl

/-- Where a file is or could be does not depend on what is there. -/
theorem Leads.place_eq (h : Leads d here parts found) (hs : found.spot? = some place) :
    place = parts.foldl Path.climb here := by
  induction h with
  | nil here => cases hs
  | up _ ih => exact ih hs
  | into _ _ _ ih => exact ih hs
  | file _ _ => exact (Option.some_inj.mp hs).symm
  | vacant _ _ => exact (Option.some_inj.mp hs).symm

/-- Names lead to a file also after a node was put elsewhere, where no directory was. -/
theorem Leads.put_of_ne (h : Leads d here parts (.file place bytes)) (node : Node)
    (hne : spot ≠ place) (hspot : d.entries.lookup spot ≠ some .directory) :
    Leads (d.put spot node) here parts (.file place bytes) := by
  generalize hfound : Place.file place bytes = found at h
  induction h with
  | nil here => cases hfound
  | up _ ih => exact .up (ih hfound)
  | @into here rest part found hname hlookup _ ih =>
    -- there is a directory on the way, so the node is not put here
    have hother : Path.climb here part ≠ spot := by
      rintro rfl
      exact hspot hlookup
    exact .into hname (by rw [lookup_put, if_neg hother, hlookup]) (ih hfound)
  | file hname hlookup =>
    obtain ⟨rfl, rfl⟩ := Place.file.inj hfound
    exact .file hname (by rw [lookup_put, if_neg (Ne.symm hne), hlookup])
  | vacant _ _ => cases hfound

theorem leads_of_resolve (h : d.resolve name = .ok found) :
    Leads d (Path.parse name).start (Path.parse name).parts found := by
  apply (follow_eq_ok_iff name).mp
  unfold resolve at h
  split at h
  · cases h
  · split at h
    · cases h
    · split at h
      · cases h
      · next hfollow =>
        cases h
        exact hfollow
      · next hfollow =>
        split at h
        · cases h
        · cases h
          exact hfollow
      · next hfollow =>
        split at h
        · cases h
        · cases h
          exact hfollow

theorem resolve_put_of_ne (h : d.resolve name = .ok (.file place bytes)) (node : Node)
    (hne : spot ≠ place) (hspot : d.entries.lookup spot ≠ some .directory) :
    (d.put spot node).resolve name = .ok (.file place bytes) := by
  have hleads := leads_of_resolve h
  have hfollow := (follow_eq_ok_iff name).mpr (hleads.put_of_ne node hne hspot)
  unfold resolve at h ⊢
  rw [(follow_eq_ok_iff name).mpr hleads] at h
  rw [hfollow]
  exact h

theorem exists_resolve_of_read (h : d.read name = .ok bytes) :
    ∃ place, d.resolve name = .ok (.file place bytes) := by
  unfold read at h
  split at h
  · cases h
  · next place _ hresolve =>
    cases h
    exact ⟨place, hresolve⟩
  · cases h
  · cases h

/-- A file is read as before after another place was written. -/
theorem read_write_of_ne (hwrite : d.write other written = .ok after)
    (hread : d.read name = .ok bytes)
    (hne : (Path.parse other).place ≠ (Path.parse name).place) : after.read name = .ok bytes := by
  obtain ⟨place, hresolve⟩ := exists_resolve_of_read hread
  have hplace : place = (Path.parse name).place := (leads_of_resolve hresolve).place_eq rfl
  unfold write at hwrite
  split at hwrite
  · cases hwrite
  · next found hfound =>
    split at hwrite
    · cases hwrite
    · next spot hs =>
      cases hwrite
      have hleads := leads_of_resolve hfound
      have hspot : spot = (Path.parse other).place := hleads.place_eq hs
      have hfile := lookup_ne_directory ((follow_eq_ok_iff other).mpr hleads) hs
      have hput := resolve_put_of_ne hresolve (.file written) (by rwa [hspot, hplace]) hfile
      simp only [read, hput]

end Directory

end LittleMan
