import Broker.Value.ToData
import Broker.Value.Order
import Broker.Decode.Bin
import Broker.Subscriber.Deadlock
import Broker.Subscriber.Channel
import Broker.Decode.RoundTrip
import Broker.Decode.Accepted
import Broker.Subscriber.Calls
import Broker.Subscriber.Disconnect
