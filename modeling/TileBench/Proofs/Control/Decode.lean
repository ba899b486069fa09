import Mathlib.Tactic.Lemma
import TileBench.Control.Cursor

/-!
# What is a stream of messages

A stream of words is the words of messages up to where a message is cut off or a word starts none;
`Flawed` says what is there. From this follow both directions of `decode`: it accepts the
concatenations of messages and nothing else, and names the flaw of any other byte string. `scan_eq`
says that taking one word after another comes to the same and never asks for a word that is not
there.
-/

namespace TileBench

namespace Bytes

/-- Every word has four bytes. -/
lemma length_ofWords (ws : List UInt32) : (ofWords ws).length = 4 * ws.length := by
  induction ws with
  | nil => rfl
  | cons w ws ih =>
    rw [ofWords, List.flatMap_cons, List.length_append, ← ofWords, ih,
      List.length_cons, Nat.mul_succ, Nat.add_comm]
    rfl

/-- The bytes of words one after another are the bytes of each. -/
lemma ofWords_append (us ws : List UInt32) : ofWords (us ++ ws) = ofWords us ++ ofWords ws :=
  List.flatMap_append

/-- The first of some words can be taken off their bytes. -/
lemma takeWord_ofWords (w : UInt32) (ws : List UInt32) :
    takeWord (ofWords (w :: ws)) = .ok (w, ofWords ws) := by
  rw [ofWords, List.flatMap_cons, ofWord]
  simp only [List.cons_append, List.nil_append, takeWord, toWord_ofWord]
  rfl

/-- Four bytes at the front are four more. -/
lemma length_quad (a b c d : UInt8) (bytes : List UInt8) :
    (a :: b :: c :: d :: bytes).length = bytes.length + 4 := rfl

/-- Bytes are the bytes of words where their number is a multiple of four. -/
lemma exists_ofWords {bytes : List UInt8} (whole : bytes.length % 4 = 0) :
    ∃ ws, bytes = ofWords ws := by
  induction bytes using words?.induct with
  | case1 => exact ⟨[], rfl⟩
  | case2 a b c d rest ih =>
    obtain ⟨ws, rfl⟩ := ih (by rwa [length_quad, Nat.add_mod_right] at whole)
    refine ⟨toWord a b c d :: ws, ?_⟩
    rw [ofWords, ofWords, List.flatMap_cons, ofWord_toWord]
    rfl
  | case3 bytes inhabited short =>
    rcases bytes with _ | ⟨a, _ | ⟨b, _ | ⟨c, _ | ⟨d, rest⟩⟩⟩⟩
    · exact absurd rfl inhabited
    · cases whole
    · cases whole
    · cases whole
    · exact absurd rfl (short a b c d rest)

/-- Bytes that end within a word are not those of words. -/
lemma words?_eq_none {bytes : List UInt8} (partly : bytes.length % 4 ≠ 0) :
    words? bytes = none := by
  induction bytes using words?.induct with
  | case1 => exact absurd rfl partly
  | case2 a b c d rest ih =>
    rw [length_quad, Nat.add_mod_right] at partly
    rw [words?, ih partly, Option.map_none]
  | case3 bytes inhabited short => exact words?.eq_3 bytes inhabited short

end Bytes

namespace ControlMessage

open Bytes (takeWord takeWord_ofWords)

variable {w : UInt32} {ws : List UInt32} {bytes rest : List UInt8} {e : Malformed}

/-- Where a stream of words stops being one of messages. -/
inductive Flawed : List UInt32 → Malformed → Prop where
  | truncatedFailure {ws : List UInt32} : ws.length < 3 → Flawed (failWord :: ws) .truncatedFailure
  /-- No message starts with the word. -/
  | unknownWord {w : UInt32} {ws : List UInt32} :
    (∀ m : ControlMessage, m.words.head? ≠ some w) → Flawed (w :: ws) (.unknownWord w)

/-! ## Words -/

/-- A word with an exit status is the one that is sent for this status. -/
lemma exitWord_of_exitStatus? {status : UInt16} (isExit : exitStatus? w = some status) :
    exitWord status = w := by
  unfold exitStatus? at isExit
  split at isExit
  · next tag =>
    cases isExit
    have bound := w.toNat_lt
    apply UInt32.toNat_inj.1
    simp only [exitTag, UInt16.size] at tag
    simp only [exitWord, exitTag, UInt16.size, UInt32.toNat_ofNat', UInt16.toNat_ofNat']
    omega
  · cases isExit

/-- A word that is none of the three that start a message starts none. -/
lemma head?_ne {m : ControlMessage} (notPass : w ≠ passWord) (notFail : w ≠ failWord)
    (notExit : exitStatus? w = none) : m.words.head? ≠ some w := by
  rintro starts
  cases m with
  | pass =>
    cases starts
    exact notPass rfl
  | fail =>
    cases starts
    exact notFail rfl
  | exit status =>
    cases starts
    rw [exitStatus?_exitWord] at notExit
    cases notExit

/-- Words that do not give the three fields of a failure are fewer than three. -/
lemma length_lt_three
    (short : ∀ index actual expected rest, ws = index :: actual :: expected :: rest → False) :
    ws.length < 3 := by
  match ws with
  | [] => exact Nat.zero_lt_succ _
  | [_] => exact Nat.lt_succ_of_lt (Nat.lt_succ_self _)
  | [_, _] => exact Nat.lt_succ_self _
  | index :: actual :: expected :: rest => exact (short index actual expected rest rfl).elim

/-- Every stream of words is messages up to its end or up to its flaw. -/
lemma exists_messages (ws : List UInt32) : ∃ (messages : List ControlMessage) (rest : List UInt32),
    ws = messages.flatMap words ++ rest ∧ (rest = [] ∨ ∃ e, Flawed rest e) := by
  induction ws using ofWords.induct with
  | case1 => exact ⟨[], [], rfl, .inl rfl⟩
  | case2 rest ih =>
    obtain ⟨messages, behind, rfl, stop⟩ := ih
    exact ⟨.pass :: messages, behind, rfl, stop⟩
  | case3 index actual expected rest _ ih =>
    obtain ⟨messages, behind, rfl, stop⟩ := ih
    exact ⟨.fail index actual expected :: messages, behind, rfl, stop⟩
  | case4 rest short =>
    exact ⟨[], _, rfl, .inr ⟨_, .truncatedFailure (length_lt_three short)⟩⟩
  | case5 w rest _ _ status isExit ih =>
    obtain ⟨messages, behind, rfl, stop⟩ := ih
    rw [← exitWord_of_exitStatus? isExit]
    exact ⟨.exit status :: messages, behind, rfl, stop⟩
  | case6 w rest notPass notFail notExit =>
    exact ⟨[], _, rfl, .inr ⟨_, .unknownWord fun _ => head?_ne notPass notFail notExit⟩⟩

/-- Messages at the front are read, and what follows is read by itself. -/
lemma ofWords_append (messages : List ControlMessage) (ws : List UInt32) :
    ofWords (messages.flatMap words ++ ws) = (ofWords ws).map (messages ++ ·) := by
  induction messages with
  | nil => cases h : ofWords ws <;> simp [h, Except.map]
  | cons m messages ih =>
    rw [List.flatMap_cons, List.append_assoc]
    cases m <;> simp [words, ofWords_pass, ofWords_fail, ofWords_exit, ih] <;>
      cases ofWords ws <;> rfl

/-- A failure without its three fields is cut off. -/
lemma ofWords_truncated (short : ws.length < 3) :
    ofWords (failWord :: ws) = .error .truncatedFailure := by
  rw [ofWords.eq_def]
  dsimp only
  rw [if_neg (by decide), if_pos rfl]
  rcases ws with _ | ⟨_, _ | ⟨_, _ | ⟨_, ws⟩⟩⟩
  · rfl
  · rfl
  · rfl
  · exact absurd short (by simp)

/-- A word that starts no message is none of the three that do. -/
lemma notStart (unknown : ∀ m : ControlMessage, m.words.head? ≠ some w) :
    w ≠ passWord ∧ w ≠ failWord ∧ exitStatus? w = none := by
  refine ⟨?_, ?_, ?_⟩
  · rintro rfl
    exact unknown .pass rfl
  · rintro rfl
    exact unknown (.fail 0 0 0) rfl
  · cases isExit : exitStatus? w with
    | none => rfl
    | some status =>
      refine absurd ?_ (unknown (.exit status))
      rw [words, exitWord_of_exitStatus? isExit]
      rfl

/-- A stream with a flaw is refused for it. -/
lemma ofWords_of_flawed (flaw : Flawed ws e) : ofWords ws = .error e := by
  cases flaw with
  | truncatedFailure short => exact ofWords_truncated short
  | unknownWord unknown =>
    obtain ⟨notPass, notFail, notExit⟩ := notStart unknown
    rw [ofWords.eq_def]
    dsimp only
    rw [if_neg notPass, if_neg notFail, notExit]

/-! ## Bytes -/

/-- The bytes of words are decoded as the words are. -/
lemma decode_ofWords (ws : List UInt32) : decode (Bytes.ofWords ws) = ofWords ws := by
  rw [decode, Bytes.words?_ofWords]

/-- Exactly the concatenations of messages are accepted. -/
lemma decode_eq_ok_iff {messages : List ControlMessage} :
    decode bytes = .ok messages ↔ bytes = encode messages := by
  constructor
  · intro decoded
    by_cases whole : bytes.length % 4 = 0
    · obtain ⟨ws, rfl⟩ := Bytes.exists_ofWords whole
      obtain ⟨messages', rest, rfl, stop⟩ := exists_messages ws
      rw [decode_ofWords, ofWords_append] at decoded
      rcases stop with rfl | ⟨e, flaw⟩
      · cases decoded
        rw [List.append_nil]
        exact congrArg encode (List.append_nil _).symm
      · rw [ofWords_of_flawed flaw] at decoded
        cases decoded
    · rw [decode, Bytes.words?_eq_none whole] at decoded
      cases decoded
  · rintro rfl
    exact decode_encode messages

/-- Every other byte string is refused for the first flaw in it. -/
lemma decode_eq_error_iff : decode bytes = .error e ↔
    (bytes.length % 4 ≠ 0 ∧ e = .partialWord bytes.length) ∨
      ∃ messages flawed, bytes = encode messages ++ Bytes.ofWords flawed ∧ Flawed flawed e := by
  constructor
  · intro refused
    by_cases whole : bytes.length % 4 = 0
    · obtain ⟨ws, rfl⟩ := Bytes.exists_ofWords whole
      obtain ⟨messages, rest, rfl, stop⟩ := exists_messages ws
      rw [decode_ofWords, ofWords_append] at refused
      rcases stop with rfl | ⟨e', flaw⟩
      · cases refused
      · rw [ofWords_of_flawed flaw] at refused
        cases refused
        exact .inr ⟨messages, rest, Bytes.ofWords_append .., flaw⟩
    · rw [decode, Bytes.words?_eq_none whole] at refused
      cases refused
      exact .inl ⟨whole, rfl⟩
  · rintro (⟨partly, rfl⟩ | ⟨messages, flawed, rfl, flaw⟩)
    · rw [decode, Bytes.words?_eq_none partly]
    · rw [encode, ← Bytes.ofWords_append, decode_ofWords, ofWords_append, ofWords_of_flawed flaw]
      rfl

/-! ## Word by word -/

/-- Reading goes on with the bytes behind the first message. -/
lemma readAll_eq {rest : List UInt8} (taken : takeWord bytes = .ok (w, rest)) :
    readAll bytes = (readMessage w rest).bind fun
      | .error e => .ok (.error e)
      | .ok (m, behind) => (readAll behind).map (Except.map (m :: ·)) := by
  have inhabited : bytes ≠ [] := by
    rintro rfl
    cases taken
  rw [readAll, if_neg inhabited]
  split
  · next failed => cases taken.symm.trans failed
  · next taken' =>
    cases taken.symm.trans taken'
    dsimp only
    split
    all_goals
      next read =>
        rw [read]
        rfl

/-- A failure takes three words more. -/
lemma readMessage_fail (index actual expected : UInt32) (ws : List UInt32) :
    readMessage failWord (Bytes.ofWords (index :: actual :: expected :: ws)) =
      .ok (.ok (.fail index actual expected, Bytes.ofWords ws)) := by
  have room : ¬ (Bytes.ofWords (index :: actual :: expected :: ws)).length < 12 := by
    rw [Bytes.length_ofWords, List.length_cons, List.length_cons, List.length_cons]
    omega
  rw [readMessage, if_neg (by decide), if_pos rfl, if_neg room]
  simp only [takeWord_ofWords, bind, Except.bind]
  rfl

/-- A failure for which three words are not left is cut off, and none of them is asked for. -/
lemma readMessage_truncated (short : ws.length < 3) :
    readMessage failWord (Bytes.ofWords ws) = .ok (.error .truncatedFailure) := by
  have noRoom : (Bytes.ofWords ws).length < 12 := by
    rw [Bytes.length_ofWords]
    omega
  rw [readMessage, if_neg (by decide), if_pos rfl, if_pos noRoom]
  rfl

/-- A word that is neither a pass nor a failure takes no more words. -/
lemma readMessage_other (notPass : w ≠ passWord) (notFail : w ≠ failWord) (bytes : List UInt8) :
    readMessage w bytes = .ok (match exitStatus? w with
      | some status => .ok (.exit status, bytes)
      | none => .error (.unknownWord w)) := by
  rw [readMessage, if_neg notPass, if_neg notFail]
  cases exitStatus? w with
  | none => rfl
  | some => rfl

/-- The messages that are taken one after another are those in the words. -/
lemma readAll_ofWords (ws : List UInt32) : readAll (Bytes.ofWords ws) = .ok (ofWords ws) := by
  -- What is read behind a message goes behind it.
  have next {m : ControlMessage} {ws : List UInt32}
      (ih : readAll (Bytes.ofWords ws) = .ok (ofWords ws)) :
      (readAll (Bytes.ofWords ws)).map (Except.map (m :: ·)) = .ok ((ofWords ws).map (m :: ·)) := by
    rw [ih]
    rfl
  induction ws using ofWords.induct with
  | case1 =>
    have empty : Bytes.ofWords [] = [] := rfl
    rw [empty, readAll, if_pos rfl]
    rfl
  | case2 rest ih =>
    rw [readAll_eq (takeWord_ofWords ..), readMessage, if_pos rfl, ofWords_pass]
    exact next ih
  | case3 index actual expected rest _ ih =>
    rw [readAll_eq (takeWord_ofWords ..), readMessage_fail, ofWords_fail]
    exact next ih
  | case4 rest short =>
    have short := length_lt_three short
    rw [readAll_eq (takeWord_ofWords ..), readMessage_truncated short, ofWords_truncated short]
    rfl
  | case5 w rest notPass notFail status isExit ih =>
    rw [readAll_eq (takeWord_ofWords ..), readMessage_other notPass notFail, isExit,
      ← exitWord_of_exitStatus? isExit, ofWords_exit]
    exact next ih
  | case6 w rest notPass notFail notExit =>
    have unknown : Flawed (w :: rest) (.unknownWord w) :=
      .unknownWord fun _ => head?_ne notPass notFail notExit
    rw [readAll_eq (takeWord_ofWords ..), readMessage_other notPass notFail, notExit,
      ofWords_of_flawed unknown]
    rfl

/-- Taking one word after another never asks for a word that is not there, and decodes the
stream. -/
lemma scan_eq (bytes : List UInt8) : scan bytes = .ok (decode bytes) := by
  by_cases whole : bytes.length % 4 = 0
  · obtain ⟨ws, rfl⟩ := Bytes.exists_ofWords whole
    rw [scan, if_neg (Decidable.not_not.mpr whole), readAll_ofWords, decode_ofWords]
  · rw [scan, if_pos whole, decode, Bytes.words?_eq_none whole]
    rfl

end ControlMessage

end TileBench
