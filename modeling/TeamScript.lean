import TeamScript.Cursor.Script
import TeamScript.Lexer.Session
import TeamScript.Log
import TeamScript.Main
import TeamScript.Proofs.Acceptance
import TeamScript.Proofs.GapExchange
import TeamScript.Proofs.Layout
import TeamScript.Proofs.Memoryless
import TeamScript.Proofs.Stability
import TeamScript.Proofs.LineJoin
import TeamScript.Proofs.PunctuationFilter
import TeamScript.Proofs.Progress
import TeamScript.Proofs.Lexicon
import TeamScript.Proofs.History
import TeamScript.Proofs.Reprint
import TeamScript.Proofs.ListedRun
import TeamScript.Proofs.Grammar.Notice
import TeamScript.Proofs.Account
import TeamScript.Proofs.Grammar.Foreign
import TeamScript.Proofs.Renaming
import TeamScript.Proofs.LongestNumeral
import TeamScript.Proofs.NestedComment
import TeamScript.Proofs.StringStops
import TeamScript.Proofs.PunctuationBlanks
import TeamScript.Proofs.NameAttempt
import TeamScript.Proofs.Bearings
import TeamScript.Proofs.Machine.Counters
