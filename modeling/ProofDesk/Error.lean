import ProofDesk.Deduction.Proof
import ProofDesk.Limits.Feedback
import ProofDesk.Logic.Scope
import ProofDesk.Markup.Sentence

namespace ProofDesk

inductive Error where
  | reading (e : Logic.ReadError)
  | markup (e : Markup.Error)
  | rule (e : Deduction.RuleError)
  | proof (e : Deduction.ProofError)
  | session (e : Limits.SessionError)
  | checker (e : Limits.CheckerError)

namespace Error

def ofAsk : Limits.Session.AskError → Error
  | .session e => session e
  | .checker e => checker e

def message : Error → Text
  | reading e => e.message
  | markup e => e.message
  | rule e => e.message
  | proof e => e.message
  | session e => e.message
  | checker e => e.message

end Error
end ProofDesk
