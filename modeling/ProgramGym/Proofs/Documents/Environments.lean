import ProgramGym.Environment.Reader
import ProgramGym.Proofs.Checks
import ProgramGym.Proofs.Metrics

/-! Environments of documents. A vocabulary that is an array of texts is one of tokens: items of an
array are told apart as the texts are, and no other value is alike one of them. Main statement: an
environment of given parts is the one that is created from what they are read as. -/
namespace ProgramGym

namespace Environment
open Json

/-- A vocabulary as a document. -/
def Documents.tokens (vocabulary : Vocabulary) : Json := .array (vocabulary.map .text)

theorem Documents.any_alike_tokens (vocabulary : Vocabulary) (j : Json) :
    ((vocabulary.map .text).any fun item => alike (some item) (some j)) =
      j.text?.any vocabulary.contains := by
  rw [List.any_map]
  cases j with
  | text t => exact List.any_beq'
  | null | bool b | number x | array items | object members =>
    exact List.any_eq_false.mpr fun _ _ => Bool.false_ne_true

theorem Documents.repeats_tokens (vocabulary : Vocabulary) :
    repeats (vocabulary.map .text) = (vocabulary.eraseDups.length != vocabulary.length) := by
  have repeated : repeats (vocabulary.map .text) = !decide vocabulary.Nodup := by
    induction vocabulary with
    | nil => rfl
    | cons token vocabulary ih =>
      have later : (vocabulary.map .text).any (fun k => alike (some (.text token)) (some k)) =
          vocabulary.contains token := by
        rw [List.any_map]
        exact List.any_beq
      rw [List.map_cons, repeats, ih, later]
      simp [List.nodup_cons]
  rw [repeated, bne, Bool.not_inj_iff, Bool.eq_iff_iff, decide_eq_true_iff, beq_iff_eq,
    length_eraseDups_iff]

/-- Settings pass against an array of texts as they pass against the tokens. -/
theorem Documents.settings_tokens (vocabulary : Vocabulary) (request : SettingsRequest) :
    settings (tokens vocabulary) request = Settings.resolve vocabulary request := by
  simp only [settings, tokens, Settings.resolve, repeats_tokens, any_alike_tokens, List.isEmpty_map]

/-- Where the reward and the interpreter are accepted and a task is given. -/
theorem ofParts_tokens {j given : Json} {vocabulary : Vocabulary} {design : RewardDesign}
    {interpreter : Interpreter Float}
    (paid : RewardDesign.ofJson (j.get? "reward") = .ok design)
    (run : Interpreter.ofJson ((j.get? "executor").getD .null) = .ok interpreter)
    (task : j.get? "task" = some given) (there : given.isNull = false) :
    ofParts j (Documents.tokens vocabulary) =
      create (Catalog.takeTask given) vocabulary
        (interpreterFor (Catalog.takeTask given) interpreter) design.reward
        (.ofMembers (Json.spread (j.get? "config"))) := by
  have words : Catalog.takeTokens (Documents.tokens vocabulary) = .ok vocabulary := by
    have kept : (vocabulary.map Json.text).map Json.word = vocabulary := by
      rw [List.map_map]
      exact List.map_id vocabulary
    exact congrArg Except.ok kept
  rw [ofParts, paid, run, Documents.settings_tokens, words, task, create]
  cases Settings.resolve vocabulary (.ofMembers (Json.spread (j.get? "config"))) with
  | error e => rfl
  | ok settings =>
    cases given with
    | null => cases there
    | bool | number | text | array | object => rfl

end Environment
end ProgramGym
