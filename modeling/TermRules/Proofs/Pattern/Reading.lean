import TermRules.Pattern.Parser

/-!
Reading a pattern that is one row of nodes, without groups or alternatives. A row is read one piece
after another: each lemma says what a piece adds to the nodes read so far, whatever is behind it.
-/

namespace TermRules.Pattern

namespace Read

variable [Library]

/-- Reading a row from the characters at a position, after the nodes in `done`, last first. -/
def rowFrom (finish fuel position : Nat) (cs : List Char) (done : List Node) :
    Except Refusal (List Node × Source) :=
  (sequence fuel ⟨false, false, true⟩ done).run { tokens := tokens position cs, finish := finish }

variable {finish fuel position : Nat} {rest : List Char} {done : List Node}

theorem rowFrom_lineStart : rowFrom finish (fuel + 1) position ('^' :: '[' :: rest) done =
    rowFrom finish fuel (position + 1) ('[' :: rest) (.anchor .lineStart :: done) := by
  rfl

theorem rowFrom_lineEnd : rowFrom finish (fuel + 2) position ['$'] done =
    .ok ((.anchor .lineEnd :: done).reverse, { tokens := [], finish := finish }) := by
  rfl

/-- A pattern that is read to its end as one row, without flags. -/
theorem parse_of_rowFrom {pattern : String} {cs : List Char} {body : List Node}
    (hcs : pattern.toList = cs)
    (hfirst : requireToken.run { tokens := tokens 0 cs, finish := cs.length } =
      .ok ((), { tokens := tokens 0 cs, finish := cs.length }))
    (hrow : rowFrom cs.length (8 * (tokens 0 cs).length + 7) 0 cs [] =
      .ok (body, { tokens := [], finish := cs.length }))
    (hverify : verifyAll false body = .ok ()) : parse pattern = .ok ⟨{}, body⟩ := by
  have hchoices : (choices (8 * (tokens 0 cs).length + 8) ⟨false, false, true⟩).run
      { tokens := tokens 0 cs, finish := cs.length } =
        .ok ([body], { tokens := [], finish := cs.length }) := by
    rw [rowFrom] at hrow
    rw [choices, StateT.run_bind, hrow]
    rfl
  have hwhole : whole.run { tokens := tokens 0 cs, finish := cs.length } =
      .ok (⟨{}, body⟩, { tokens := [], finish := cs.length }) := by
    rw [whole, StateT.run_bind, hfirst]
    change ((choices (8 * (tokens 0 cs).length + 8) ⟨false, false, true⟩).run
      { tokens := tokens 0 cs, finish := cs.length } >>= _) = _
    rw [hchoices]
    rfl
  rw [parse, hcs, hwhole]
  simp only [bind, Except.bind, hverify, pure, Except.pure]

end Read

end TermRules.Pattern
