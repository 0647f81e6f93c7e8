import LanguageClient.Proofs.Wire.Pieces

/-!
# Streams of bodies

What a decoder makes of bodies that are each in a frame of its own, whatever stands in them: each of
them as it reads, whatever pieces the stream comes in, and nothing is left over. Such a stream is
brief, since the headers that are written are.
-/

namespace LanguageClient

namespace Decoder

open State

variable {bodies : List Bytes}

/-- Bodies in their frames drain to what they read as. -/
theorem drains_wrap (h : ∀ body ∈ bodies, body.length ≤ Frame.maxLength) :
    Drains ⟨bodies.flatMap Frame.wrap, none⟩ (bodies.map readBody) ⟨[], none⟩ := by
  induction bodies with
  | nil => exact .rest rfl
  | cons body bodies ih =>
    rw [List.flatMap_cons]
    exact .more (step_wrap (h body (by simp)) _) (ih fun b hb => h b (by simp [hb]))

/-- Between two frames the header block that comes next is the one that was written. -/
theorem brief_wrap (h : ∀ body ∈ bodies, body.length ≤ Frame.maxLength) :
    Brief ⟨bodies.flatMap Frame.wrap, none⟩ := by
  induction bodies with
  | nil => exact brief_of_length_le (Nat.zero_le _)
  | cons body bodies ih =>
    have hbody : body.length ≤ Frame.maxLength := h body (by simp)
    have hbrief := ih fun b hb => h b (by simp [hb])
    have hstep := step_wrap hbody (bodies.flatMap Frame.wrap)
    intro t ht hawaited
    rw [List.flatMap_cons] at ht
    cases ht with
    | next hnext hrest =>
      rw [hstep] at hnext
      cases hnext
      exact hbrief t hrest hawaited
    | here =>
      have hmem := Frame.not_mem_encode (Frame.not_mem_headerText body.length)
      have hblock := Frame.findTerminator_block hmem (body ++ bodies.flatMap Frame.wrap)
      have hlen := Frame.length_headerText_le hbody
      rw [Frame.blockLength, Frame.wrap_eq, List.append_assoc, List.append_assoc, hblock,
        Option.getD_some]
      omega

end Decoder

namespace Framer

open Decoder

/-- **Whatever pieces a stream of framed bodies comes in, each body is read once, in order**, and
nothing is left over. -/
theorem feedAll_wrap {bodies : List Bytes} (h : ∀ body ∈ bodies, body.length ≤ Frame.maxLength)
    {pieces : List Bytes} (hp : pieces.flatten = bodies.flatMap Frame.wrap) :
    (feedAll empty pieces).1.flatten = bodies.map readBody ∧
      (feedAll empty pieces).2.view = ⟨[], none⟩ := by
  have hpush : empty.view.push pieces.flatten = ⟨bodies.flatMap Frame.wrap, none⟩ := by
    rw [hp]
    rfl
  exact feedAll_of_drains valid_empty rfl hpush (brief_wrap h) (drains_wrap h)

end Framer

end LanguageClient
