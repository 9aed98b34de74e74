import Keystore.ErrorQueue
import Keystore.Listing
import Keystore.Main
import Keystore.Proofs.StoreListing
import Keystore.Proofs.Record
import Keystore.Sink
import Keystore.Proofs.StoreFile
import Keystore.Proofs.StoreFaults
import Keystore.Proofs.Arguments
import Keystore.Proofs.FileTree
import Keystore.Proofs.Shell
import Keystore.Proofs.Command
import Keystore.Proofs.Instant
import Keystore.Proofs.PackCommand
import Keystore.Proofs.Text
import Keystore.Proofs.Field
import Keystore.Proofs.StoreSeal
import Keystore.Proofs.StoreTemplate
import Keystore.Proofs.StorePasswords
import Keystore.Proofs.FilesKept
import Keystore.Proofs.Diagnostics
import Keystore.Proofs.VerifyCommand
import Keystore.Proofs.BundleText
import Keystore.Proofs.KeyTampering
import Keystore.Proofs.Transcoding
import Keystore.Proofs.KeyFile
import Keystore.Proofs.Sink
import Keystore.Proofs.PackGrammar
import Keystore.Proofs.OptionValues
import Keystore.Proofs.FrameForm
import Keystore.Proofs.ConsoleHistory
import Keystore.Proofs.StoreTrace
import Keystore.Proofs.TimestampText
import Keystore.Proofs.KeyPasswords
import Keystore.Proofs.KeyStream
import Keystore.Proofs.HomePaths
import Keystore.Proofs.CommandOutcome
import Keystore.Proofs.ErrorStream
import Keystore.Proofs.ExitStatus
import Keystore.Proofs.TimestampOrder
