import Stembot.Agent.PsaDevice
import Stembot.Firmware.Discipline
import Stembot.Firmware.Fresh
import Stembot.Firmware.Nonces
import Stembot.Firmware.Untouched
import Stembot.Firmware.Wire
import Stembot.Library.Lowering
import Stembot.Models.RoundTrip
import Stembot.Models.Embedding
import Stembot.Agent.Delivery
import Stembot.Storage.TypedReads
import Stembot.Processor.Rounds
import Stembot.Processor.Echoes
import Stembot.Processor.Polling
import Stembot.Processor.Identity
import Stembot.Processor.Report
import Stembot.Processor.Response
import Stembot.Processor.Downgrade
import Stembot.Processor.Survival
import Stembot.Processor.Secrets
import Stembot.Processor.Partial
import Stembot.Console.Refinement
import Stembot.Console.Concurrent
import Stembot.Console.Interrupted
import Stembot.Console.Histories
import Stembot.Console.Credentials
import Stembot.Console.Ping
import Stembot.Console.Station
import Stembot.Models.TypeDetection
import Stembot.Storage.Clients
import Stembot.Storage.PutResults
