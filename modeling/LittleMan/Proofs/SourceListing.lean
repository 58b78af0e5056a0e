/-
The listing of an assembled program shows its source.

The tag table gives every box at most one name, so the first name of a box is the tag of the
statement there, and a reference comes back as the tag it was written with. What the words do not
keep is not shown: `DAT` shows as a halt with the data beside it, and an operand that did not count
is gone.

* `nameAt?_of_statement`: the name of a box is the tag of its statement;
* `Listing.Line.Shows`: what a line shows of a statement;
* `shows_of_assemble`: in the listing of a program every line shows the statement of its box.
-/
import LittleMan.Proofs.AssembledProgram
import LittleMan.Proofs.Listing
import LittleMan.Proofs.Naming
namespace LittleMan

open Listing Text

theorem Address.wrap_of_lt {i : Nat} (h : i < 100) : Address.wrap (i : Int) = ⟨i, h⟩ :=
  Address.wrap_coe ⟨i, h⟩

/-! ### Names of boxes -/

section Program

variable {lines : List String} {filename : String} {p : Program} {i : Nat} {s : Statement}

theorem lt_of_statement (hp : p.IsAssemblyOf lines filename) (hs : p.statements[i]? = some s) :
    i < 100 :=
  Nat.lt_of_lt_of_le (List.getElem?_eq_some_iff.mp hs).1 hp.length_le

/-- The entry of a box, if there is one, is that of the statement in the box. -/
theorem tag_of_entry (hp : p.IsAssemblyOf lines filename) (hs : p.statements[i]? = some s)
    {e : String × Int} (he : e ∈ p.tags.entries) (hbox : e.2 % 100 = i % 100) :
    s.tag = some e.1 := by
  obtain ⟨name, a⟩ := e
  rw [hp.tags] at he
  obtain ⟨j, u, hu, htag, rfl⟩ := Draft.mem_tagEntries.mp he
  -- both indices are addresses, so neither goes round
  have hj := lt_of_statement hp hu
  have hi := lt_of_statement hp hs
  have hji : j = i := by
    dsimp only at hbox
    omega
  subst hji
  rw [Option.some_inj.mp (hs.symm.trans hu), htag]

/-- The name of a box is the tag of its statement. -/
theorem nameAt?_of_statement (hp : p.IsAssemblyOf lines filename)
    (hs : p.statements[i]? = some s) : p.tags.nameAt? i = s.tag := by
  cases htag : s.tag with
  | none =>
    refine TagTable.nameAt?_eq_none_iff.mpr fun e he hbox => ?_
    have := tag_of_entry hp hs he hbox
    rw [htag] at this
    exact absurd this (by simp)
  | some name =>
    refine TagTable.nameAt?_eq_some ?_ fun e he hbox => ?_
    · rw [hp.tags]
      exact Draft.mem_tagEntries.mpr ⟨i, s, hs, htag, by rw [Nat.zero_add]⟩
    · have := tag_of_entry hp hs he hbox
      rw [htag] at this
      exact (Option.some_inj.mp this).symm

/-- A box is shown by the tag of its statement. -/
theorem render_of_statement (hp : p.IsAssemblyOf lines filename)
    (hs : p.statements[i]? = some s) {name : String} (htag : s.tag = some name) :
    p.tags.render i = name :=
  TagTable.render_of_name ((nameAt?_of_statement hp hs).trans htag)

/-! ### Lines -/

/-- What a line of a listing shows of a statement. -/
structure Listing.Line.Shows (line : Line) (s : Statement) : Prop where
  label : line.label = s.tag
  /-- A reference shows with the tag it was written with. -/
  reference : s.opcode.takesTag = true →
    line.mnemonic = s.opcode.name ∧ s.operand.map Field.text = some line.operandText
  /-- An operand beside `IN` or `OUT` is not shown. -/
  transfer : s.opcode.isTransfer = true →
    line.mnemonic = s.opcode.name ∧ line.operand = none ∧ line.operandText = ""
  halt : s.opcode = .hlt → s.operand = none → line.text = "HLT" ∧ line.comment = ""
  /-- Small data shows as a halt, with the data in the comment. -/
  data : ∀ operand : Field, s.operand = some operand → s.opcode = .hlt ∨ s.opcode = .dat →
    1 ≤ decimal operand.text.toList → decimal operand.text.toList ≤ 99 →
      line.text = "HLT" ∧ line.comment = "DAT " ++ padded 3 (decimal operand.text.toList)

theorem Listing.Line.label_ofWord (tags : TagTable) (word : Int) (address : Option Int) :
    (ofWord tags word address).label = address.bind tags.nameAt? := by
  rw [ofWord]
  dsimp only
  split
  · rfl
  · split
    · rfl
    · split
      · rfl
      · cases Opcode.ofBase? (word - word % 100) <;> rfl

/-- A word that a statement encodes to, in the statement's box, shows the statement. -/
theorem shows_of_encodes (hp : p.IsAssemblyOf lines filename) (hs : p.statements[i]? = some s)
    {w : Word} (he : s.Encodes p.statements w.val) :
    (Line.ofWord p.tags w.val (some (i : Int))).Shows s where
  label := by
    rw [Line.label_ofWord, Option.bind_some, nameAt?_of_statement hp hs]
  reference h := by
    obtain ⟨operand, j, target, ho, hj, htag, -, hw⟩ :=
      (Statement.encodes_iff_of_takesTag h).mp he
    -- the operand's box is the target's, and that box has the operand for its name
    have hlt := lt_of_statement hp hj
    rw [Line.ofWord_of_takesTag p.tags (some (i : Int)) h (a := ⟨j, hlt⟩) hw, ho, Option.map_some]
    exact ⟨rfl, congrArg some (render_of_statement hp hj htag).symm⟩
  transfer h := by
    rcases s.opcode.cases_of with (h' | h') | h' | h'
    · have hw := (Statement.encodes_iff_of_input h').mp he
      rw [Line.ofWord_of_input p.tags (some (i : Int)) hw, h']
      exact ⟨rfl, rfl, rfl⟩
    · have hw := (Statement.encodes_iff_of_output h').mp he
      rw [Line.ofWord_of_output p.tags (some (i : Int)) hw, h']
      exact ⟨rfl, rfl, rfl⟩
    · rcases h' with h' | h' <;> simp [h', Opcode.isTransfer] at h
    · cases ho : s.opcode <;> simp [ho, Opcode.isTransfer, Opcode.takesTag] at h h'
  halt h ho := by
    have hw := (Statement.encodes_iff_of_halt h ho).mp he
    rw [Line.ofWord_of_lt p.tags (some (i : Int)) (by omega), hw]
    exact ⟨rfl, rfl⟩
  data operand ho h hlow hhigh := by
    obtain ⟨-, -, hw, -⟩ := (Statement.encodes_iff_of_literal h ho).mp he
    rw [Line.ofWord_of_lt p.tags (some (i : Int)) (by omega), hw]
    exact ⟨rfl, if_neg (by omega)⟩

/-- In the listing of a program, every line shows the statement of its box. -/
theorem shows_of_assemble (h : assemble lines filename = .ok p)
    (hs : p.statements[i]? = some s) :
    (Line.ofWord p.tags (p.image.read i).val (some (i : Int))).Shows s := by
  have hp := assemble_eq_ok_iff.mp h
  have hlt := lt_of_statement hp hs
  rw [Memory.read, Address.wrap_of_lt hlt]
  exact shows_of_encodes hp hs (hp.encoded ⟨i, hlt⟩ s hs)

end Program

/-- A reference forward, past an operand that is not shown. -/
theorem shows_forward_reference :
    ∃ p s,
      assemble ["loop in 7", "\tbrz Stop # leave", "\tBR loop", "Stop hlt 042"] "leave" = .ok p ∧
      p.statements[1]? = some s ∧ (Line.ofWord p.tags (p.image.read 1).val (some 1)).Shows s ∧
      (Line.ofWord p.tags (p.image.read 1).val (some 1)).render = "01: 703  BRZ Stop" := by
  have hrun : (assemble ["loop in 7", "\tbrz Stop # leave", "\tBR loop", "Stop hlt 042"]
      "leave").map (fun p => (p.statements[1]?.isSome,
        (Line.ofWord p.tags (p.image.read 1).val (some 1)).render)) =
      .ok (true, "01: 703  BRZ Stop") := by
    decide +kernel
  obtain ⟨p, hp, hout⟩ := exists_of_map_eq_ok hrun
  obtain ⟨hsome, hrender⟩ := Prod.mk.inj hout
  obtain ⟨s, hs⟩ := Option.isSome_iff_exists.mp hsome
  exact ⟨p, s, hp, hs, shows_of_assemble hp hs, hrender⟩

end LittleMan
