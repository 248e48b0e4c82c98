import FastApiAuth.Pagination
import FastApiAuth.Privileges

/-!
# The cursor codec with the exceptions it raises

Every integer within the limit of the interpreter has its own cursor, which is read back as that
integer. Any other string of code points is read as some integer or is a ValueError.
-/

namespace FastApiAuth.CursorCodec

set_option autoImplicit false

open PyCodecs
open PyInt (decimalDigits)
open PyStr (CodePoint)

/-- Cursors up to the limit are read back, are URL-safe and differ; any other string is read
as some integer or is answered with 400. -/
theorem cursor_codec :
    (∀ value, decimalDigits value ≤ maxStrDigits → ∃ cursor, encodeCursor value = .ok cursor ∧
      (∀ c ∈ cursor, c ∈ (Base64.alphabet ++ ['=']).map PyStr.codePoint) ∧
      ∀ unicode, decodeCursor unicode cursor = .ok value) ∧
    (∀ value other cursor, encodeCursor value = .ok cursor → encodeCursor other = .ok cursor →
      value = other) ∧
    ∀ unicode cursor, (∃ value, decodeCursor unicode cursor = .ok value) ∨
      decodeCursor unicode cursor = .error invalidCursorError ∧
      ∀ dialect s credentials limit q user,
        requirePermissions s credentials ["users:read"] = .ok user →
        listUsersFeed unicode dialect s credentials (some cursor) limit q =
          .ok (.error invalidCursor) := by
  refine ⟨?_, ?_, ?_⟩
  · intro value hvalue
    refine ⟨_, encodeCursor_eq hvalue, ?_, ?_⟩
    · intro c hc
      obtain ⟨d, hd, rfl⟩ := List.mem_map.mp hc
      rw [Base64.encode, String.toList_ofList] at hd
      apply List.mem_map_of_mem
      rcases Base64.mem_encodeGroups hd with hd | rfl
      · exact List.mem_append_left _ hd
      · exact List.mem_append_right _ (List.mem_singleton_self _)
    · intro unicode
      exact decodeCursor_encodeCursor (encodeCursor_eq hvalue)
  · intro value other cursor hvalue hother
    have hdecoded : decodeCursor asciiOnly cursor = .ok value := decodeCursor_encodeCursor hvalue
    rw [decodeCursor_encodeCursor hother] at hdecoded
    cases hdecoded
    rfl
  · intro unicode cursor
    rcases decodeCursor_cases unicode cursor with hok | herror
    · exact Or.inl hok
    · refine Or.inr ⟨herror, ?_⟩
      intro dialect s credentials limit q user huser
      unfold listUsersFeed paginateCursor
      simp only [huser, herror]
      rfl

/-- The letters are whole groups, but the bytes they stand for are no UTF-8. -/
def undecodableCursor : List CodePoint := codePoints "not-valid-base64!!!"

/-- The admin of the sample reads on from row -12, and sends a cursor that is none. -/
theorem cursor_codec_sample :
    (∃ cursor, encodeCursor (-12) = .ok cursor ∧ decodeCursor asciiOnly cursor = .ok (-12)) ∧
    ∀ dialect, listUsersFeed asciiOnly dialect Privileges.sampleServer
      ⟨"a@example.com", "access", "uuid4", 0, 1800⟩ (some undecodableCursor) 20 none =
        .ok (.error invalidCursor) := by
  constructor
  · obtain ⟨cursor, hcursor, _, hdecoded⟩ := cursor_codec.1 (-12) (by decide +kernel)
    exact ⟨cursor, hcursor, hdecoded asciiOnly⟩
  · intro dialect
    have hundecodable : decodeCursor asciiOnly undecodableCursor = .error invalidCursorError := by
      decide +kernel
    rcases cursor_codec.2.2 asciiOnly undecodableCursor with ⟨value, hvalue⟩ | ⟨_, hanswer⟩
    · rw [hundecodable] at hvalue
      cases hvalue
    · have hadmin : requirePermissions Privileges.sampleServer
          ⟨"a@example.com", "access", "uuid4", 0, 1800⟩ ["users:read"] =
            .ok ⟨1, "a@example.com", some "Passw0rd$0", true, true, 0⟩ := by
        decide +kernel
      exact hanswer _ _ _ _ _ _ hadmin

end FastApiAuth.CursorCodec
